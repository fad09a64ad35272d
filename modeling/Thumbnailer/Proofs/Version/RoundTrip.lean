import Mathlib.Data.List.Forall2
import Mathlib.Data.Set.List
import Thumbnailer.Proofs.Text.Integers
import Thumbnailer.Proofs.Text.Pieces
import Thumbnailer.Version

/-!
# Versions as text

What is read as a version, and what a version is written as. Writing is undone by reading; reading and writing bring a
text into a normal form, in which each number is written plainly and one point stands between two numbers.
-/

namespace Thumbnailer.Version

open Text

/-! ## The parts of a text -/

/-- A part of a text is a stretch between points that is not empty. -/
def IsPart (text part : String) : Prop := part ≠ "" ∧ IsPiece '.' text.toList part.toList

theorem parts_eq (text : String) : parts text = (solidPieces '.' text.toList).map String.ofList := by
  rw [← solidPieces_strip text.toList]
  rfl

theorem mem_parts_iff {text part : String} : part ∈ parts text ↔ IsPart text part := by
  rw [parts_eq, IsPart, ← mem_splitOn_iff, List.mem_map]
  constructor
  · rintro ⟨piece, hpiece, rfl⟩
    rw [solidPieces, List.mem_filter] at hpiece
    exact ⟨by simpa using hpiece.2, by simpa using hpiece.1⟩
  · rintro ⟨hne, hpiece⟩
    exact ⟨part.toList, List.mem_filter.2 ⟨hpiece, by simpa using hne⟩, String.ofList_toList⟩

theorem parts_eq_nil_iff {text : String} : parts text = [] ↔ ¬∃ part, IsPart text part := by
  simp only [List.eq_nil_iff_forall_not_mem, mem_parts_iff, not_exists]

/-! ## Reading -/

theorem exists_of_mem_forall₂ {α β : Type} {R : α → β → Prop} {as : List α} {bs : List β} (h : List.Forall₂ R as bs)
    {a : α} (ha : a ∈ as) : ∃ b ∈ bs, R a b := by
  induction h with
  | nil => cases ha
  | cons hab _ ih =>
    obtain rfl | ha := List.mem_cons.1 ha
    · exact ⟨_, List.mem_cons_self, hab⟩
    · obtain ⟨b, hb, hab⟩ := ih ha
      exact ⟨b, List.mem_cons_of_mem _ hb, hab⟩

theorem readParts_cases (ps : List String) :
    (∃ v, readParts ps = .ok v ∧ List.Forall₂ IntegerText ps v) ∨
      ∃ p ∈ ps, ∃ reason, readInteger p = .error reason ∧ readParts ps = .error (.badPart reason) := by
  induction ps with
  | nil => exact .inl ⟨[], rfl, .nil⟩
  | cons p rest ih =>
    rw [readParts]
    cases hp : readInteger p with
    | error reason => exact .inr ⟨p, List.mem_cons_self, reason, hp, rfl⟩
    | ok n =>
      obtain ⟨v, hread, hv⟩ | ⟨q, hq, reason, hreason, hread⟩ := ih
      · exact .inl ⟨n :: v, by simp [hread, Except.map], .cons (readInteger_eq_ok_iff.1 hp) hv⟩
      · exact .inr ⟨q, List.mem_cons_of_mem p hq, reason, hreason, by simp [hread, Except.map]⟩

theorem readParts_of_forall₂ {ps : List String} {v : Version} (h : List.Forall₂ IntegerText ps v) :
    readParts ps = .ok v := by
  induction h with
  | nil => rfl
  | cons hp _ ih => simp [readParts, readInteger_eq_ok_iff.2 hp, ih, Except.map]

section
variable {text : String} {v : Version}

theorem parse_of_parts_ne_nil (h : parts text ≠ []) : parse text = readParts (parts text) := by
  rw [parse, if_neg (by simpa using h)]

theorem parse_empty_iff : parse text = .error (.empty text) ↔ parts text = [] := by
  constructor
  · intro h
    by_contra hne
    rw [parse_of_parts_ne_nil hne] at h
    obtain ⟨v, hread, -⟩ | ⟨-, -, reason, -, hread⟩ := readParts_cases (parts text)
    · rw [hread] at h
      cases h
    · rw [hread] at h
      cases h
  · intro h
    rw [parse, if_pos (by simpa using h)]

/-- A version has a number for each part, and each part stands for its number. -/
theorem parse_eq_ok_iff : parse text = .ok v ↔ v ≠ [] ∧ List.Forall₂ IntegerText (parts text) v := by
  by_cases hnil : parts text = []
  · rw [parse_empty_iff.2 hnil, hnil]
    simp
  rw [parse_of_parts_ne_nil hnil]
  constructor
  · intro h
    obtain ⟨w, hread, hw⟩ | ⟨-, -, reason, -, hread⟩ := readParts_cases (parts text)
    · obtain rfl := Except.ok.inj (hread.symm.trans h)
      exact ⟨fun hv => hnil (by simpa [hv] using hw), hw⟩
    · rw [hread] at h
      cases h
  · rintro ⟨-, hv⟩
    exact readParts_of_forall₂ hv

theorem parse_error_cases {e : VersionError} (h : parse text = .error e) :
    ((¬∃ part, IsPart text part) ∧ e = .empty text) ∨
      ∃ part reason, IsPart text part ∧ readInteger part = .error reason ∧ e = .badPart reason := by
  by_cases hnil : parts text = []
  · rw [parse_empty_iff.2 hnil] at h
    exact .inl ⟨parts_eq_nil_iff.1 hnil, (Except.error.inj h).symm⟩
  · rw [parse_of_parts_ne_nil hnil] at h
    obtain ⟨v, hread, -⟩ | ⟨part, hpart, reason, hreason, hread⟩ := readParts_cases (parts text)
    · rw [hread] at h
      cases h
    · exact .inr ⟨part, reason, mem_parts_iff.1 hpart, hreason, Except.error.inj (h.symm.trans hread)⟩

theorem parse_fails_iff : (∃ e, parse text = .error e) ↔
    (¬∃ part, IsPart text part) ∨ ∃ part, IsPart text part ∧ ¬∃ n, IntegerText part n := by
  constructor
  · rintro ⟨e, h⟩
    refine (parse_error_cases h).imp And.left ?_
    rintro ⟨part, reason, hpart, hreason, -⟩
    refine ⟨part, hpart, fun ⟨n, hn⟩ => ?_⟩
    rw [readInteger_eq_ok_iff.2 hn] at hreason
    cases hreason
  · intro h
    cases hparse : parse text with
    | error e => exact ⟨e, rfl⟩
    | ok v =>
      obtain ⟨hne, hv⟩ := parse_eq_ok_iff.1 hparse
      obtain hnone | ⟨part, hpart, hnot⟩ := h
      · rw [parts_eq_nil_iff.2 hnone, List.forall₂_nil_left_iff] at hv
        exact absurd hv hne
      · obtain ⟨n, -, hn⟩ := exists_of_mem_forall₂ hv (mem_parts_iff.2 hpart)
        exact absurd ⟨n, hn⟩ hnot

end

/-! ## Writing -/

section
variable {v : Version}

theorem mapM_writeInteger (v : Version) :
    v.mapM writeInteger = if v.all isWritable then .ok (v.map toString) else .error .tooLarge := by
  induction v with
  | nil => rfl
  | cons n v ih =>
    rw [List.mapM_cons, ih, writeInteger, List.all_cons]
    cases isWritable n with
    | false => rfl
    | true => cases v.all isWritable <;> rfl

theorem write_eq (v : Version) : write v = if v.all isWritable then .ok v.text else .error .tooLarge := by
  rw [write, mapM_writeInteger]
  cases v.all isWritable <;> rfl

theorem write_of_isWritable (h : ∀ n ∈ v, isWritable n = true) : write v = .ok v.text := by
  rw [write_eq, if_pos (List.all_eq_true.2 h)]

theorem toList_text (v : Version) : v.text.toList = ['.'].intercalate (v.map fun n => (toString n).toList) := by
  rw [text, String.toList_intercalate, List.map_map]
  rfl

theorem point_not_mem_toString (n : Int) : '.' ∉ (toString n).toList := by
  rw [toList_toString_int]
  have hdigits : '.' ∉ Nat.toDigits 10 n.natAbs := fun hmem => absurd (isDigit_toDigits n.natAbs '.' hmem) (by decide)
  split
  · simpa using hdigits
  · exact hdigits

theorem parts_text (h : v ≠ []) : parts v.text = v.map toString := by
  have hpieces : v.text.toList.splitOn '.' = v.map fun n => (toString n).toList := by
    rw [toList_text]
    exact List.splitOn_intercalate '.' (List.forall_mem_map.2 fun n _ => point_not_mem_toString n) (by simpa using h)
  have hsolid : (v.map fun n => (toString n).toList).filter (fun piece => !piece.isEmpty) =
      v.map fun n => (toString n).toList := by
    refine List.filter_eq_self.2 (List.forall_mem_map.2 fun n _ => ?_)
    simpa using (plain_toString_int n).ne_nil
  rw [parts_eq, solidPieces, hpieces, hsolid, List.map_map]
  simp

theorem parse_text (hne : v ≠ []) (h : ∀ n ∈ v, isWritable n = true) : parse v.text = .ok v := by
  rw [parse_eq_ok_iff, parts_text hne]
  refine ⟨hne, ?_⟩
  rw [List.forall₂_map_left_iff, List.forall₂_same]
  exact fun n hn => integerText_toString (h n hn)

theorem isWritable_of_parse {text : String} (h : parse text = .ok v) : ∀ n ∈ v, isWritable n = true := by
  intro n hn
  obtain ⟨part, -, hpart⟩ := exists_of_mem_forall₂ (parse_eq_ok_iff.1 h).2.flip hn
  exact isWritable_of_integerText hpart

end

/-! ## The normal form -/

/-- The normal form of the text of a version: numbers as they are written, none of them with more digits than the limit,
and one point between two of them. -/
def IsNormal (text : String) : Prop :=
  ∃ numbers : List (List Char), numbers ≠ [] ∧
    (∀ number ∈ numbers, WrittenInteger number ∧ (number.filter Char.isDigit).length ≤ digitLimit) ∧
    text.toList = ['.'].intercalate numbers

theorem filter_isDigit_toString (n : Int) : (toString n).toList.filter Char.isDigit = Nat.toDigits 10 n.natAbs := by
  have hdigits := List.filter_eq_self.2 (isDigit_toDigits n.natAbs)
  rw [toList_toString_int]
  split
  · rw [List.filter_cons_of_neg (by decide), hdigits]
  · exact hdigits

/-- The texts in normal form are those of the versions that can be written. -/
theorem isNormal_iff {text : String} :
    IsNormal text ↔ ∃ v : Version, v ≠ [] ∧ (∀ n ∈ v, isWritable n = true) ∧ v.text = text := by
  constructor
  · rintro ⟨numbers, hne, hnumbers, htext⟩
    have hwritten : numbers ∈ Set.range (List.map fun n : Int => (toString n).toList) := by
      rw [Set.range_list_map]
      exact fun number hnumber => exists_toString_of_writtenInteger (hnumbers number hnumber).1
    obtain ⟨v, rfl⟩ := hwritten
    refine ⟨v, by simpa using hne, fun n hn => ?_, String.toList_injective ((toList_text v).trans htext.symm)⟩
    have hlimit := (hnumbers _ (List.mem_map_of_mem hn)).2
    rwa [filter_isDigit_toString, ← isWritable_iff] at hlimit
  · rintro ⟨v, hne, hv, rfl⟩
    refine ⟨v.map fun n => (toString n).toList, by simpa using hne, List.forall_mem_map.2 fun n hn => ?_, toList_text v⟩
    rw [filter_isDigit_toString]
    exact ⟨writtenInteger_toString n, isWritable_iff.1 (hv n hn)⟩

/-! ## The round trip -/

/-- What reading and writing do to a text and a version. -/
structure RoundTrip (text : String) (v : Version) : Prop where
  /-- Writing a version and reading it gives it back. -/
  written : v ≠ [] → (∀ n ∈ v, (Nat.toDigits 10 n.natAbs).length ≤ digitLimit) →
    ∃ normal, write v = .ok normal ∧ parse normal = .ok v
  /-- What was read can be written, in normal form, and this is read as the same. -/
  normalized : parse text = .ok v → ∃ normal, write v = .ok normal ∧ IsNormal normal ∧ parse normal = .ok v
  /-- A text is written as it was read exactly if it is in normal form. -/
  settled : parse text = .ok v → (write v = .ok text ↔ IsNormal text)
  /-- The numbers that are read are those that the parts stand for. -/
  read : parse text = .ok v ↔ v ≠ [] ∧ List.Forall₂ IntegerText (parts text) v
  fails : (∃ e, parse text = .error e) ↔
    (¬∃ part, IsPart text part) ∨ ∃ part, IsPart text part ∧ ¬∃ n, IntegerText part n
  /-- Reading fails for want of a part, or with the error of a part that is not read. -/
  failure : ∀ e, parse text = .error e → ((¬∃ part, IsPart text part) ∧ e = .empty text) ∨
    ∃ part reason, IsPart text part ∧ readInteger part = .error reason ∧ e = .badPart reason

/-- **Versions go through text unchanged.** For every text and every version. -/
theorem text_roundTrip (text : String) (v : Version) : RoundTrip text v where
  written hne hdigits :=
    have hv : ∀ n ∈ v, isWritable n = true := fun n hn => isWritable_iff.2 (hdigits n hn)
    ⟨v.text, write_of_isWritable hv, parse_text hne hv⟩
  normalized h :=
    have hne := (parse_eq_ok_iff.1 h).1
    have hv := isWritable_of_parse h
    ⟨v.text, write_of_isWritable hv, isNormal_iff.2 ⟨v, hne, hv, rfl⟩, parse_text hne hv⟩
  settled := by
    intro h
    rw [write_of_isWritable (isWritable_of_parse h), Except.ok.injEq, isNormal_iff]
    constructor
    · exact fun htext => ⟨v, (parse_eq_ok_iff.1 h).1, isWritable_of_parse h, htext⟩
    · rintro ⟨w, hne, hw, rfl⟩
      obtain rfl := Except.ok.inj ((parse_text hne hw).symm.trans h)
      rfl
  read := parse_eq_ok_iff
  fails := parse_fails_iff
  failure _ := parse_error_cases

/-- A text that is far from its normal form. -/
example : parse "..-0_5. +٣ ..7." = .ok [-5, 3, 7] ∧ write [-5, 3, 7] = .ok "-5.3.7" := by decide +kernel

end Thumbnailer.Version
