import Mathlib.Data.List.Forall2
import Thumbnailer.Proofs.Text.Searching
import Thumbnailer.Proofs.Text.Trimming
import Thumbnailer.Text.Lower

/-!
# Phrases in a text, whatever their case

A phrase in small ASCII letters is held by a text if a form of each of its letters stands there, one behind the
other. The forms of a letter are the characters whose small letter it is, and two small letters of their own.
-/

namespace Thumbnailer.Text

/-- `c` is a form of the letter `a`: `a` is its small letter, or `c` is the dotless i or the long s, which have the
capital letters of i and s. -/
def FormOf (a c : Char) : Prop :=
  (lowerChar c).head? = some a ∨ (a = 'i' ∧ c = '\u0131') ∨ (a = 's' ∧ c = '\u017f')

/-- The phrase stands somewhere in the text, in forms of its letters. -/
def HoldsPhrase (phrase s : List Char) : Prop :=
  ∃ before found after, s = before ++ (found ++ after) ∧ List.Forall₂ FormOf phrase found

/-- The characters that phrases consist of: ASCII from the space on, without capital letters. -/
def isPhraseChar (a : Char) : Bool := 32 ≤ a.toNat && a.toNat < 128 && !a.isUpper

/-! ## Forms of letters -/

section
variable {a c : Char}

/-- Of all capital letters beyond ASCII, only the Kelvin sign has a small letter within it. -/
theorem capitals_beyond_ascii : ∀ r ∈ capitals, r = (0x212a, 0x212a, 1, -8383) ∨ 128 ≤ (r.1 : Int) + r.2.2.2 := by
  decide +kernel

theorem toNat_ofNat {n : Nat} : (Char.ofNat n).toNat = n ∨ (Char.ofNat n).toNat = 0 := by
  by_cases h : n.isValidChar
  · exact .inl (by rw [Char.ofNat, dif_pos h]; rfl)
  · exact .inr (by rw [Char.ofNat, dif_neg h]; rfl)

theorem isUpper_iff : c.isUpper = true ↔ 65 ≤ c.toNat ∧ c.toNat ≤ 90 := decide_eq_true_iff

theorem not_isUpper_of_beyond_ascii (hc : 128 ≤ c.toNat) : c.isUpper = false := by
  rw [Bool.eq_false_iff, ne_eq, isUpper_iff]
  omega

theorem lowerChar_kelvin : lowerChar '\u212a' = ['k'] := by decide +kernel

theorem lowerChar_beyond_ascii (hc : 128 ≤ c.toNat) (ha : isPhraseChar a = true) :
    (lowerChar c).head? = some a ↔ (a = 'i' ∧ c = '\u0130') ∨ (a = 'k' ∧ c = '\u212a') := by
  simp only [isPhraseChar, Bool.and_eq_true, decide_eq_true_eq] at ha
  by_cases hkelvin : c = '\u212a'
  · subst hkelvin
    simp [lowerChar_kelvin, eq_comm (a := a)]
  rw [lowerChar, if_neg (by omega)]
  by_cases hdotted : c = '\u0130'
  · subst hdotted
    simp [eq_comm (a := a)]
  rw [if_neg (by simpa using hdotted)]
  simp only [hdotted, hkelvin, and_false, or_false, iff_false]
  -- No other capital letter beyond ASCII has a small letter within it.
  split
  · next r hr =>
    have hrange : r.1 ≤ c.toNat ∧ c.toNat ≤ r.2.1 := by
      have := List.find?_some hr
      simp only [Bool.and_eq_true, decide_eq_true_eq] at this
      exact this.1
    obtain rfl | hbeyond := capitals_beyond_ascii r (List.mem_of_find?_eq_some hr)
    · exact absurd (Char.toNat_inj.1 (by simpa using le_antisymm hrange.2 hrange.1)) hkelvin
    · rintro ⟨⟩
      have := toNat_ofNat (n := (c.toNat + r.2.2.2).toNat)
      omega
  · rintro ⟨⟩
    omega

theorem lowerChar_ascii (hc : c.toNat < 128) : (lowerChar c).head? = some a ↔ c.toLower = a := by
  rw [lowerChar, if_pos hc, List.head?_cons, Option.some_inj]

/-- Phrases are found by the small letters of a text, dotless i and long s apart. -/
theorem sameLetter_iff (ha : isPhraseChar a = true) : sameLetter a c = true ↔ FormOf a c := by
  have ha' := ha
  simp only [isPhraseChar, Bool.and_eq_true, decide_eq_true_eq, Bool.not_eq_true'] at ha'
  simp only [sameLetter, FormOf, Bool.or_eq_true, Bool.and_eq_true, beq_iff_eq]
  -- Within ASCII only capitals have another small letter; beyond it there are two characters with one.
  by_cases hc : c.toNat < 128
  · rw [lowerChar_ascii hc]
    have hfar (d : Char) (hd : 128 ≤ d.toNat) : c ≠ d := by
      rintro rfl
      omega
    simp only [hfar '\u0130' (by decide), hfar '\u0131' (by decide), hfar '\u017f' (by decide),
      hfar '\u212a' (by decide), and_false, or_false]
    cases hupper : c.isUpper with
    | true =>
      have hne : c ≠ a := by
        rintro rfl
        simp [hupper] at ha'
      simp [hne]
    | false =>
      have hlower : c.toLower = c := dif_neg (of_decide_eq_false hupper)
      simp [hlower]
  · rw [lowerChar_beyond_ascii (by omega) ha, not_isUpper_of_beyond_ascii (by omega)]
    have hne : c ≠ a := by
      rintro rfl
      omega
    simp only [hne]
    tauto

end

/-! ## Searching without regard to case -/

section
variable {phrase s : List Char}

theorem startsLike_iff : startsLike phrase s = true ↔
    ∃ found after, s = found ++ after ∧ List.Forall₂ (fun a c => sameLetter a c = true) phrase found := by
  induction phrase generalizing s with
  | nil => exact ⟨fun _ => ⟨[], s, rfl, .nil⟩, fun _ => rfl⟩
  | cons a phrase ih =>
    cases s with
    | nil =>
      constructor
      · intro h
        cases h
      · rintro ⟨_, after, hs, hc | ⟨hc, hfound⟩⟩
        cases hs
    | cons c s =>
      rw [startsLike, Bool.and_eq_true, ih]
      constructor
      · rintro ⟨hc, found, after, rfl, hfound⟩
        exact ⟨c :: found, after, rfl, .cons hc hfound⟩
      · rintro ⟨_, after, hs, hc | ⟨hc, hfound⟩⟩
        obtain ⟨rfl, rfl⟩ := List.cons.inj hs
        exact ⟨hc, _, after, rfl, hfound⟩

theorem holdsLike_iff_startsLike :
    holdsLike phrase s = true ↔ ∃ before after, s = before ++ after ∧ startsLike phrase after = true := by
  rw [holdsLike, Option.isSome_iff_ne_none, ne_eq, leftmost_eq_none_iff]
  simp only [ite_eq_right_iff, reduceCtorEq, imp_false, not_forall, not_not, exists_prop]

theorem forall₂_formOf (h : phrase.all isPhraseChar = true) (found : List Char) :
    List.Forall₂ (fun a c => sameLetter a c = true) phrase found ↔ List.Forall₂ FormOf phrase found := by
  induction phrase generalizing found with
  | nil => simp only [List.forall₂_nil_left_iff]
  | cons a phrase ih =>
    rw [List.all_cons, Bool.and_eq_true] at h
    cases found with
    | nil => simp only [List.forall₂_nil_right_iff, reduceCtorEq]
    | cons c found => rw [List.forall₂_cons, List.forall₂_cons, sameLetter_iff h.1, ih h.2]

theorem holdsLike_iff (h : phrase.all isPhraseChar = true) : holdsLike phrase s = true ↔ HoldsPhrase phrase s := by
  simp only [holdsLike_iff_startsLike, startsLike_iff, forall₂_formOf h, HoldsPhrase]
  constructor
  · rintro ⟨before, _, hs, found, after, rfl, hfound⟩
    exact ⟨before, found, after, hs, hfound⟩
  · rintro ⟨before, found, after, hs, hfound⟩
    exact ⟨before, _, hs, found, after, rfl, hfound⟩

end

/-! ## Blanks around a phrase -/

theorem isBlank_of_sameLetter {a c : Char} (ha : isBlank a = false) (h : sameLetter a c = true) :
    isBlank c = false := by
  simp only [sameLetter, Bool.or_eq_true, Bool.and_eq_true, beq_iff_eq] at h
  obtain (((rfl | ⟨hupper, -⟩) | ⟨-, rfl | rfl⟩) | ⟨-, rfl⟩) | ⟨-, rfl⟩ := h
  · exact ha
  -- A capital letter is none of the blanks. What follows are single letters of other alphabets.
  · have hrange := isUpper_iff.1 hupper
    simp only [isBlank, Bool.or_eq_false_iff, Bool.and_eq_false_iff, decide_eq_false_iff_not, beq_eq_false_iff_ne]
    omega
  all_goals decide

/-- A phrase with no blank at its ends. -/
structure IsSolid (phrase : List Char) : Prop where
  start : phrase.head?.map isBlank = some false
  stop : phrase.getLast?.map isBlank = some false

section
variable {phrase : List Char} {c : Char}

theorem IsSolid.exists_cons (h : IsSolid phrase) : ∃ a rest, phrase = a :: rest ∧ isBlank a = false := by
  obtain ⟨a, hhead, ha⟩ := Option.map_eq_some_iff.1 h.start
  obtain ⟨rest, hrest⟩ := List.head?_eq_some_iff.1 hhead
  exact ⟨a, rest, hrest, ha⟩

theorem sameLetter_isBlank {a : Char} (ha : isBlank a = false) (hc : isBlank c = true) : sameLetter a c = false := by
  rw [Bool.eq_false_iff]
  intro h
  simp [isBlank_of_sameLetter ha h] at hc

theorem holdsLike_cons (h : IsSolid phrase) (hc : isBlank c = true) (s : List Char) :
    holdsLike phrase (c :: s) = holdsLike phrase s := by
  obtain ⟨a, rest, rfl, ha⟩ := h.exists_cons
  simp [holdsLike, leftmost, startsLike, sameLetter_isBlank ha hc]

theorem startsLike_concat (hlast : ∀ a ∈ phrase.getLast?, sameLetter a c = false) (s : List Char) :
    startsLike phrase (s ++ [c]) = startsLike phrase s := by
  induction phrase generalizing s with
  | nil => rfl
  | cons a phrase ih =>
    have hlast' : ∀ b ∈ phrase.getLast?, sameLetter b c = false := by
      intro b hb
      exact hlast b (by rw [List.getLast?_cons, Option.mem_def.1 hb]; rfl)
    cases s with
    | cons d s => rw [List.cons_append, startsLike, startsLike, ih hlast']
    | nil =>
      cases phrase with
      | nil => simp [startsLike, hlast a rfl]
      | cons b phrase => simp [startsLike]

theorem holdsLike_concat (h : IsSolid phrase) (hc : isBlank c = true) (s : List Char) :
    holdsLike phrase (s ++ [c]) = holdsLike phrase s := by
  obtain ⟨b, hb, hfull⟩ := Option.map_eq_some_iff.1 h.stop
  have hlast : ∀ a ∈ phrase.getLast?, sameLetter a c = false := by
    rintro a ha
    obtain rfl : b = a := Option.some.inj (hb.symm.trans ha)
    exact sameLetter_isBlank hfull hc
  obtain ⟨a, rest, rfl, -⟩ := h.exists_cons
  rw [holdsLike, leftmost_concat]
  simp only [startsLike_concat hlast]
  simp [startsLike, holdsLike]

theorem exists_not_isBlank_of_holdsLike {s : List Char} (h : IsSolid phrase) (hholds : holdsLike phrase s = true) :
    ∃ c ∈ s, isBlank c = false := by
  obtain ⟨before, _, rfl, hstarts⟩ := holdsLike_iff_startsLike.1 hholds
  obtain ⟨found, after, rfl, hfound⟩ := startsLike_iff.1 hstarts
  obtain ⟨a, rest, rfl, ha⟩ := h.exists_cons
  obtain - | ⟨hc, -⟩ := hfound
  exact ⟨_, by simp, isBlank_of_sameLetter ha hc⟩

end

end Thumbnailer.Text
