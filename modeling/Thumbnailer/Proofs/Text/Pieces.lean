import Thumbnailer.Text.Blank
import Mathlib.Data.List.Induction

/-!
# The pieces of a text

What stands between the separators of a text. A character in front of the text or behind it makes a new piece if it
is the separator, and else goes to the first or last piece.
-/

namespace Thumbnailer.Text

variable {separator c : Char}

theorem splitOn_cons_separator (rest : List Char) :
    (separator :: rest).splitOn separator = [] :: rest.splitOn separator := by
  rw [List.splitOn_cons_eq_if_modifyHead, if_pos (beq_self_eq_true separator)]

theorem splitOn_cons (hc : c ≠ separator) (rest : List Char) :
    ∃ first others, rest.splitOn separator = first :: others ∧
      (c :: rest).splitOn separator = (c :: first) :: others := by
  obtain ⟨first, others, hrest⟩ := List.exists_cons_of_ne_nil (List.splitOn_ne_nil separator rest)
  refine ⟨first, others, hrest, ?_⟩
  rw [List.splitOn_cons_eq_if_modifyHead, if_neg (by simpa using hc), hrest, List.modifyHead_cons]

theorem splitOn_concat_separator (text : List Char) :
    (text ++ [separator]).splitOn separator = text.splitOn separator ++ [[]] := by
  rw [List.splitOn_append_cons_self, List.splitOn_nil]

theorem splitOn_concat (hc : c ≠ separator) (text : List Char) :
    ∃ others last, text.splitOn separator = others ++ [last] ∧
      (text ++ [c]).splitOn separator = others ++ [last ++ [c]] := by
  induction text with
  | nil => exact ⟨[], [], List.splitOn_nil _, List.splitOn_eq_singleton (by simpa using hc.symm)⟩
  | cons d rest ih =>
    obtain ⟨others, last, hrest, hconcat⟩ := ih
    rw [List.cons_append, List.splitOn_cons_eq_if_modifyHead, List.splitOn_cons_eq_if_modifyHead, hrest, hconcat]
    split
    · exact ⟨[] :: others, last, rfl, rfl⟩
    · cases others with
      | nil => exact ⟨[], d :: last, rfl, rfl⟩
      | cons first others => exact ⟨(d :: first) :: others, last, rfl, rfl⟩

theorem not_mem_of_mem_splitOn (separator : Char) (text : List Char) :
    ∀ piece ∈ text.splitOn separator, separator ∉ piece := by
  induction text with
  | nil => simp
  | cons c rest ih =>
    by_cases hc : c = separator
    · rw [hc, splitOn_cons_separator]
      simpa using ih
    · obtain ⟨first, others, hrest, hsplit⟩ := splitOn_cons hc rest
      rw [hrest, List.forall_mem_cons] at ih
      rw [hsplit, List.forall_mem_cons]
      exact ⟨by simpa [Ne.symm hc] using ih.1, ih.2⟩

theorem forall_mem_splitOn {P : Char → Prop} (h : P separator) (text : List Char) :
    (∀ piece ∈ text.splitOn separator, ∀ c ∈ piece, P c) ↔ ∀ c ∈ text, P c := by
  induction text with
  | nil => simp
  | cons c rest ih =>
    rw [List.forall_mem_cons, ← ih]
    by_cases hc : c = separator
    · simp [hc, splitOn_cons_separator, h]
    · obtain ⟨first, others, hrest, hsplit⟩ := splitOn_cons hc rest
      simp [hsplit, hrest, and_assoc]

/-! ## Where a piece stands -/

/-- A stretch of the text without the separator that goes as far as it can on both sides. -/
def IsPiece (separator : Char) (text piece : List Char) : Prop :=
  separator ∉ piece ∧ ∃ before after, text = before ++ (piece ++ after) ∧
    (∀ c ∈ before.getLast?, c = separator) ∧ ∀ c ∈ after.head?, c = separator

/-- The first piece stands at the start of the text, and each other one behind a separator. -/
theorem splitOn_places {text first : List Char} {others : List (List Char)}
    (h : text.splitOn separator = first :: others) :
    (∃ after, text = first ++ after ∧ ∀ c ∈ after.head?, c = separator) ∧
      ∀ piece ∈ others, ∃ before after, text = before ++ separator :: (piece ++ after) ∧
        ∀ c ∈ after.head?, c = separator := by
  induction text generalizing first others with
  | nil =>
    obtain ⟨rfl, rfl⟩ := List.cons.inj ((List.splitOn_nil separator).symm.trans h)
    exact ⟨⟨[], rfl, by simp⟩, by simp⟩
  | cons c rest ih =>
    -- A separator opens a new piece; any other character goes on the first one of the rest.
    by_cases hc : c = separator
    · rw [hc, splitOn_cons_separator] at h
      obtain ⟨rfl, rfl⟩ := List.cons.inj h
      obtain ⟨next, more, hrest⟩ := List.exists_cons_of_ne_nil (List.splitOn_ne_nil separator rest)
      obtain ⟨⟨after, hnext, hafter⟩, hmore⟩ := ih hrest
      refine ⟨⟨c :: rest, rfl, by simpa using hc⟩, ?_⟩
      rw [hrest, List.forall_mem_cons]
      refine ⟨⟨[], after, by rw [hc, hnext, List.nil_append], hafter⟩, fun piece hpiece => ?_⟩
      obtain ⟨before, after, hplace, hafter⟩ := hmore piece hpiece
      exact ⟨c :: before, after, by rw [hplace, List.cons_append], hafter⟩
    · obtain ⟨next, more, hrest, hsplit⟩ := splitOn_cons hc rest
      obtain ⟨rfl, rfl⟩ := List.cons.inj (hsplit.symm.trans h)
      obtain ⟨⟨after, hnext, hafter⟩, hmore⟩ := ih hrest
      refine ⟨⟨after, by rw [hnext, List.cons_append], hafter⟩, fun piece hpiece => ?_⟩
      obtain ⟨before, after, hplace, hafter⟩ := hmore piece hpiece
      exact ⟨c :: before, after, by rw [hplace, List.cons_append], hafter⟩

theorem isPiece_of_mem_splitOn {text piece : List Char} (h : piece ∈ text.splitOn separator) :
    IsPiece separator text piece := by
  refine ⟨not_mem_of_mem_splitOn separator text piece h, ?_⟩
  obtain ⟨first, others, hsplit⟩ := List.exists_cons_of_ne_nil (List.splitOn_ne_nil separator text)
  obtain ⟨⟨after, hfirst, hafter⟩, hothers⟩ := splitOn_places hsplit
  rw [hsplit, List.mem_cons] at h
  obtain rfl | hmem := h
  · exact ⟨[], after, hfirst, by simp, hafter⟩
  · obtain ⟨before, after, hplace, hafter⟩ := hothers piece hmem
    exact ⟨before ++ [separator], after, by simp [hplace], by simp, hafter⟩

theorem mem_splitOn_of_isPiece {text piece : List Char} (h : IsPiece separator text piece) :
    piece ∈ text.splitOn separator := by
  obtain ⟨hpiece, before, after, rfl, hbefore, hafter⟩ := h
  have hfirst : piece ∈ (piece ++ after).splitOn separator := by
    cases after with
    | nil => rw [List.append_nil, List.splitOn_eq_singleton hpiece, List.mem_singleton]
    | cons c rest =>
      rw [hafter c rfl, List.splitOn_append_cons_self_of_not_mem hpiece]
      exact List.mem_cons_self
  cases before using List.reverseRecOn with
  | nil => exact hfirst
  | append_singleton before c =>
    rw [hbefore c (by simp), List.append_assoc, List.singleton_append, List.splitOn_append_cons_self]
    exact List.mem_append_right _ hfirst

theorem mem_splitOn_iff {text piece : List Char} : piece ∈ text.splitOn separator ↔ IsPiece separator text piece :=
  ⟨isPiece_of_mem_splitOn, mem_splitOn_of_isPiece⟩

/-! ## Pieces that are not empty -/

/-- The pieces of a text without the empty ones. -/
def solidPieces (separator : Char) (text : List Char) : List (List Char) :=
  (text.splitOn separator).filter fun piece => !piece.isEmpty

theorem solidPieces_nil : solidPieces separator [] = [] := by simp [solidPieces]

theorem solidPieces_separator (before after : List Char) :
    solidPieces separator (before ++ separator :: after) = solidPieces separator before ++ solidPieces separator after := by
  rw [solidPieces, List.splitOn_append_cons_self, List.filter_append]
  rfl

theorem solidPieces_cons (text : List Char) : solidPieces separator (separator :: text) = solidPieces separator text :=
  solidPieces_separator [] text

theorem solidPieces_dropWhile (text : List Char) :
    solidPieces separator (text.dropWhile (· == separator)) = solidPieces separator text := by
  induction text with
  | nil => rfl
  | cons c rest ih =>
    by_cases hc : c = separator
    · rw [List.dropWhile_cons_of_pos (by simpa using hc), ih, hc, solidPieces_cons]
    · rw [List.dropWhile_cons_of_neg (by simpa using hc)]

theorem solidPieces_stripEnd (text : List Char) :
    solidPieces separator (stripEnd (· == separator) text) = solidPieces separator text := by
  unfold stripEnd
  induction text using List.reverseRecOn with
  | nil => rfl
  | append_singleton text c ih =>
    rw [List.reverse_concat]
    by_cases hc : c = separator
    · rw [List.dropWhile_cons_of_pos (by simpa using hc), ih, hc, solidPieces_separator, solidPieces_nil, List.append_nil]
    · rw [List.dropWhile_cons_of_neg (by simpa using hc), List.reverse_cons, List.reverse_reverse]

theorem solidPieces_strip (text : List Char) :
    solidPieces separator (strip (· == separator) text) = solidPieces separator text := by
  rw [strip, solidPieces_stripEnd, solidPieces_dropWhile]

end Thumbnailer.Text
