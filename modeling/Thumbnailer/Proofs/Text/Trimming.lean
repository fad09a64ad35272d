import Mathlib.Data.List.TakeWhile
import Thumbnailer.Text.Blank

/-!
# Trimmed texts

Trimming takes blanks from both ends of a text and nothing else, until none stands there.
-/

namespace Thumbnailer.Text

/-- No blank stands at an end of the text. -/
structure Trimmed (s : List Char) : Prop where
  start : ∀ c ∈ s.head?, isBlank c = false
  stop : ∀ c ∈ s.getLast?, isBlank c = false

theorem head?_dropWhile_isBlank {s : List Char} : ∀ c ∈ (s.dropWhile isBlank).head?, isBlank c = false := by
  intro c hc
  have := List.head?_dropWhile_not isBlank s
  rwa [Option.mem_def.1 hc] at this

theorem trimChars_append (s : List Char) :
    ∃ after, s.dropWhile isBlank = trimChars s ++ after ∧ ∀ c ∈ after, isBlank c = true := by
  refine ⟨((s.dropWhile isBlank).reverse.takeWhile isBlank).reverse, ?_, fun c hc => ?_⟩
  · rw [trimChars, strip, stripEnd, ← List.reverse_append, List.takeWhile_append_dropWhile, List.reverse_reverse]
  · exact List.mem_takeWhile_imp (List.mem_reverse.1 hc)

theorem append_trimChars_append (s : List Char) : ∃ before after, s = before ++ (trimChars s ++ after) ∧
    (∀ c ∈ before, isBlank c = true) ∧ ∀ c ∈ after, isBlank c = true := by
  obtain ⟨after, hafter, hblank⟩ := trimChars_append s
  exact ⟨s.takeWhile isBlank, after, by rw [← hafter, List.takeWhile_append_dropWhile],
    fun c => List.mem_takeWhile_imp, hblank⟩

theorem trimmed_trimChars (s : List Char) : Trimmed (trimChars s) where
  start := by
    intro c hc
    obtain ⟨after, hafter, -⟩ := trimChars_append s
    refine head?_dropWhile_isBlank (s := s) c ?_
    rw [hafter, List.head?_append, Option.mem_def.1 hc]
    rfl
  stop := by
    rw [trimChars, strip, stripEnd, List.getLast?_reverse]
    exact head?_dropWhile_isBlank

theorem trimmed_of_trimChars_eq {s : List Char} (h : trimChars s = s) : Trimmed s := h ▸ trimmed_trimChars s

theorem mem_of_mem_trimChars {c : Char} {s : List Char} (h : c ∈ trimChars s) : c ∈ s := by
  obtain ⟨before, after, hs, -⟩ := append_trimChars_append s
  rw [hs]
  simp [h]

theorem trimChars_eq_nil {s : List Char} : trimChars s = [] ↔ ∀ c ∈ s, isBlank c = true := by
  rw [trimChars, strip, stripEnd, List.reverse_eq_nil_iff, List.dropWhile_eq_nil_iff]
  simp only [List.mem_reverse]
  constructor
  · intro h
    rw [← List.dropWhile_eq_nil_iff]
    by_contra hne
    have hfirst := List.dropWhile_get_zero_not isBlank s (List.length_pos_iff.2 hne)
    exact hfirst (h _ (List.getElem_mem _))
  · exact fun h c hc => h c ((List.dropWhile_sublist _).mem hc)

/-! ## Blanks at the ends do not count -/

section
variable {c : Char} (hc : isBlank c = true) (s : List Char)
include hc

theorem trimChars_cons : trimChars (c :: s) = trimChars s := by
  rw [trimChars, trimChars, strip, strip, List.dropWhile_cons_of_pos hc]

theorem trimChars_concat : trimChars (s ++ [c]) = trimChars s := by
  rw [trimChars, trimChars, strip, strip, stripEnd, stripEnd, List.dropWhile_append]
  split
  · next hblank => rw [List.isEmpty_iff.1 hblank, List.dropWhile_cons_of_pos hc, List.dropWhile_nil]
  · rw [List.reverse_append, List.reverse_singleton, List.singleton_append, List.dropWhile_cons_of_pos hc]

end

section
variable {α : Type} {f : List Char → α}

theorem blanks_append (hcons : ∀ c s, isBlank c = true → f (c :: s) = f s) {before : List Char}
    (hbefore : ∀ c ∈ before, isBlank c = true) (s : List Char) : f (before ++ s) = f s := by
  induction before with
  | nil => rfl
  | cons c before ih =>
    rw [List.cons_append, hcons c _ (hbefore c (by simp))]
    exact ih fun d hd => hbefore d (by simp [hd])

theorem append_blanks (hconcat : ∀ s c, isBlank c = true → f (s ++ [c]) = f s) {after : List Char}
    (hafter : ∀ c ∈ after, isBlank c = true) (s : List Char) : f (s ++ after) = f s := by
  induction after generalizing s with
  | nil => rw [List.append_nil]
  | cons c after ih =>
    rw [List.append_cons, ih fun d hd => hafter d (by simp [hd])]
    exact hconcat s c (hafter c (by simp))

/-- What does not depend on a blank at either end of a text does not depend on trimming it. -/
theorem eq_trimChars (hcons : ∀ c s, isBlank c = true → f (c :: s) = f s)
    (hconcat : ∀ s c, isBlank c = true → f (s ++ [c]) = f s) (s : List Char) : f (trimChars s) = f s := by
  obtain ⟨before, after, hs, hbefore, hafter⟩ := append_trimChars_append s
  calc f (trimChars s)
      = f (trimChars s ++ after) := (append_blanks hconcat hafter _).symm
    _ = f (before ++ (trimChars s ++ after)) := (blanks_append hcons hbefore _).symm
    _ = f s := by rw [← hs]

end

end Thumbnailer.Text
