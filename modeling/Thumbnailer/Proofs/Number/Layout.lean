import Thumbnailer.Interval
import Thumbnailer.Proofs.Graph.Words
import Thumbnailer.Proofs.Number.Shortest

/-!
# Decimals with a point

A decimal that is laid out with a point is digits on both sides of it, and these digits are the number. Without `.0`
at its end it has no point if it is an integer, and no zero behind the point in the last place otherwise.
-/

namespace Thumbnailer

/-- The number of digits before a point and of digits behind it. -/
def pointValue (whole fraction : List Char) : ℚ :=
  Nat.ofDigitChars 10 whole 0 + (Nat.ofDigitChars 10 fraction 0 : ℚ) / 10 ^ fraction.length

/-- Digits without zeros in front of them, other than a single one. -/
structure Whole (s : List Char) : Prop where
  digits : ∀ c ∈ s, c.isDigit = true
  ne_nil : s ≠ []
  leading : s.head? = some '0' → s = ['0']

/-! ## Digits of numbers -/

theorem toDigits_ten (n : Nat) :
    Nat.toDigits 10 n = if n < 10 then [n.digitChar] else Nat.toDigits 10 (n / 10) ++ [(n % 10).digitChar] :=
  Nat.toDigits_eq_if (by omega)

theorem digitChar_eq_zero {d : Nat} (h : d < 10) (heq : d.digitChar = '0') : d = 0 := by
  revert heq
  revert d
  decide

theorem head_toDigits {n : Nat} (h : 0 < n) : (Nat.toDigits 10 n).head? ≠ some '0' := by
  induction n using Nat.strongRecOn with
  | _ n ih =>
    rw [toDigits_ten]
    split
    · next hlt =>
      intro heq
      have := digitChar_eq_zero hlt (by simpa using heq)
      omega
    · rw [List.head?_append_of_ne_nil _ Nat.toDigits_ne_nil]
      exact ih (n / 10) (by omega) (by omega)

theorem getLast_toDigits {n : Nat} (h : ¬ 10 ∣ n) : (Nat.toDigits 10 n).getLast? ≠ some '0' := by
  have hlast : (Nat.toDigits 10 n).getLast? = some (n % 10).digitChar := by
    rw [toDigits_ten]
    split
    · next hlt => rw [Nat.mod_eq_of_lt hlt]; rfl
    · simp
  rw [hlast]
  intro heq
  exact h (Nat.dvd_of_mod_eq_zero (digitChar_eq_zero (Nat.mod_lt n (by omega)) (Option.some.inj heq)))

theorem whole_toDigits {n : Nat} (h : 0 < n) : Whole (Nat.toDigits 10 n) where
  digits := isDigit_toDigits n
  ne_nil := Nat.toDigits_ne_nil
  leading hzero := absurd hzero (head_toDigits h)

theorem ofDigitChars_append_zero (s t : List Char) :
    Nat.ofDigitChars 10 (s ++ t) 0 = 10 ^ t.length * Nat.ofDigitChars 10 s 0 + Nat.ofDigitChars 10 t 0 := by
  rw [Nat.ofDigitChars_append, Nat.ofDigitChars_eq_ofDigitChars_zero]

theorem pointValue_mul (whole fraction : List Char) :
    pointValue whole fraction * 10 ^ fraction.length = Nat.ofDigitChars 10 (whole ++ fraction) 0 := by
  rw [pointValue, ofDigitChars_append_zero]
  push_cast
  field_simp

/-! ## The point -/

/-- A decimal with its point: the digits around it are the number, and they end in the digits of the decimal. -/
structure Pointed (d : Decimal) (whole fraction : List Char) : Prop where
  before : Whole whole
  behind : ∀ c ∈ fraction, c.isDigit = true
  value : pointValue whole fraction = d.toRat
  integer : 0 ≤ d.exp → fraction = ['0']
  places : d.exp < 0 → (fraction.length : Int) = -d.exp ∧ fraction.getLast? = (Nat.toDigits 10 d.digits).getLast?

theorem value_of_digits {d : Decimal} {whole fraction : List Char} (hlength : (fraction.length : Int) = -d.exp)
    (hdigits : Nat.ofDigitChars 10 (whole ++ fraction) 0 = d.digits) : pointValue whole fraction = d.toRat := by
  have hpos : (0 : ℚ) < 10 ^ fraction.length := by positivity
  have hexp : (10 : ℚ) ^ d.exp * 10 ^ fraction.length = 1 := by
    rw [← zpow_natCast, hlength, ← zpow_add₀ (by norm_num)]
    simp
  refine mul_right_cancel₀ hpos.ne' ?_
  rw [pointValue_mul, hdigits, Decimal.toRat, mul_assoc, hexp, mul_one]

theorem isDigit_of_mem_zeros {n : Nat} : ∀ c ∈ List.replicate n '0', c.isDigit = true := by
  intro c hc
  rw [(List.mem_replicate.1 hc).2]
  rfl

section Point
variable {d : Decimal} {digits : List Char} (hdigits : Nat.toDigits 10 d.digits = digits) (hd : 0 < d.digits)
include hdigits hd

theorem pointed_behind (hpoint : (digits.length + d.exp : Int) ≤ 0) :
    Pointed d ['0'] (List.replicate (-(digits.length + d.exp : Int)).toNat '0' ++ digits) := by
  have hwhole : Whole digits := hdigits ▸ whole_toDigits hd
  have hlength : ((List.replicate (-(digits.length + d.exp : Int)).toNat '0' ++ digits).length : Int) = -d.exp := by
    rw [List.length_append, List.length_replicate]
    omega
  have hne : 0 < digits.length := List.length_pos_iff.2 hwhole.ne_nil
  refine ⟨⟨by simp, by simp, fun _ => rfl⟩, ?_, value_of_digits hlength ?_, by omega, fun _ => ⟨hlength, ?_⟩⟩
  · exact List.forall_mem_append.2 ⟨isDigit_of_mem_zeros, hwhole.digits⟩
  · rw [← List.append_assoc, ofDigitChars_append_zero, ← hdigits, Nat.ofDigitChars_ten_toDigits]
    simp [Nat.ofDigitChars_cons]
  · rw [hdigits, List.getLast?_append_of_ne_nil _ hwhole.ne_nil]

theorem pointed_before (hexp : 0 ≤ d.exp) : Pointed d (digits ++ List.replicate d.exp.toNat '0') ['0'] := by
  have hwhole : Whole digits := hdigits ▸ whole_toDigits hd
  refine ⟨⟨?_, by simp [hwhole.ne_nil], ?_⟩, by simp, ?_, fun _ => rfl, by omega⟩
  · exact List.forall_mem_append.2 ⟨hwhole.digits, isDigit_of_mem_zeros⟩
  · rw [List.head?_append_of_ne_nil _ hwhole.ne_nil, ← hdigits]
    exact fun hzero => absurd hzero (head_toDigits hd)
  · have hpow : (10 : ℚ) ^ d.exp = 10 ^ d.exp.toNat := by
      rw [← zpow_natCast, Int.toNat_of_nonneg hexp]
    rw [pointValue, Nat.ofDigitChars_append, ← hdigits, Nat.ofDigitChars_ten_toDigits,
      Nat.ofDigitChars_replicate_zero, Decimal.toRat, hpow]
    simp [Nat.ofDigitChars_cons, mul_comm]

theorem pointed_inside (hpoint : 0 < (digits.length + d.exp : Int)) (hexp : d.exp < 0) :
    Pointed d (digits.take (digits.length + d.exp).toNat) (digits.drop (digits.length + d.exp).toNat) := by
  have hwhole : Whole digits := hdigits ▸ whole_toDigits hd
  have hlength : ((digits.drop (digits.length + d.exp).toNat).length : Int) = -d.exp := by
    rw [List.length_drop]
    omega
  refine ⟨⟨?_, ?_, ?_⟩, ?_, value_of_digits hlength ?_, by omega, fun _ => ⟨hlength, ?_⟩⟩
  · exact fun c hc => hwhole.digits c (List.mem_of_mem_take hc)
  · rw [Ne, List.take_eq_nil_iff, ← List.length_eq_zero_iff]
    omega
  · rw [List.head?_take, if_neg (by omega), ← hdigits]
    exact fun hzero => absurd hzero (head_toDigits hd)
  · exact fun c hc => hwhole.digits c (List.mem_of_mem_drop hc)
  · rw [List.take_append_drop, ← hdigits, Nat.ofDigitChars_ten_toDigits]
  · rw [hdigits, List.getLast?_drop, if_neg (by omega)]

end Point

theorem placePoint_pointed {d : Decimal} (hd : 0 < d.digits) :
    ∃ whole fraction, Pointed d whole fraction ∧
      placePoint (Nat.toDigits 10 d.digits) ((Nat.toDigits 10 d.digits).length + d.exp) = whole ++ '.' :: fraction := by
  generalize hdigits : Nat.toDigits 10 d.digits = digits
  unfold placePoint
  split
  · next hpoint => exact ⟨_, _, pointed_behind hdigits hd hpoint, rfl⟩
  · next hpoint =>
    simp only
    split
    · next hlong =>
      have hplaces : (digits.length + d.exp).toNat - digits.length = d.exp.toNat := by omega
      rw [hplaces]
      exact ⟨_, _, pointed_before hdigits hd (by omega), by simp⟩
    · next hshort => exact ⟨_, _, pointed_inside hdigits hd (by omega) (by omega), rfl⟩

/-! ## Without a zero behind the point -/

theorem dropPointZero_integer (whole : List Char) : Interval.dropPointZero (whole ++ ['.', '0']) = whole := by
  simp [Interval.dropPointZero]

theorem dropPointZero_fraction (whole : List Char) {fraction : List Char} (hdigits : ∀ c ∈ fraction, c.isDigit = true)
    (hne : fraction ≠ []) (hzero : fraction ≠ ['0']) :
    Interval.dropPointZero (whole ++ '.' :: fraction) = whole ++ '.' :: fraction := by
  unfold Interval.dropPointZero
  split
  · next rest heq =>
    exfalso
    rw [List.reverse_append, List.reverse_cons] at heq
    obtain ⟨last, more, hlast⟩ := List.exists_cons_of_ne_nil (List.reverse_ne_nil_iff.2 hne)
    cases more with
    | nil =>
      -- A single digit is no zero.
      have hfraction : fraction = [last] := by simpa using congrArg List.reverse hlast
      rw [hlast] at heq
      obtain ⟨rfl, -⟩ : last = '0' ∧ _ := by simpa using heq
      exact hzero hfraction
    | cons next more =>
      -- The last character but one is a digit and no point.
      have hmem : next ∈ fraction := List.mem_reverse.1 (by rw [hlast]; simp)
      rw [hlast] at heq
      obtain ⟨-, rfl, -⟩ : last = '0' ∧ next = '.' ∧ _ := by simpa using heq
      exact absurd (hdigits '.' hmem) (by decide)
  · rfl

/-- A text of digits, with more digits behind a point or without a point. -/
structure Plainly (text whole fraction : List Char) : Prop where
  text : text = whole ++ if fraction = [] then [] else '.' :: fraction
  before : Whole whole
  behind : ∀ c ∈ fraction, c.isDigit = true

/-- A decimal without a zero in its last place, laid out with a point, is plain digits; it has as many behind the
point as it has places there, and none in vain. -/
theorem dropPointZero_plainly {d : Decimal} (hd : ¬ 10 ∣ d.digits) :
    ∃ whole fraction, Plainly (Interval.dropPointZero
        (placePoint (Nat.toDigits 10 d.digits) ((Nat.toDigits 10 d.digits).length + d.exp))) whole fraction ∧
      pointValue whole fraction = d.toRat ∧ (fraction.length : Int) = max 0 (-d.exp) ∧
      fraction.getLast? ≠ some '0' := by
  have hpos : 0 < d.digits := Nat.pos_of_ne_zero fun hzero => hd (hzero ▸ Nat.dvd_zero 10)
  obtain ⟨whole, fraction, hpointed, htext⟩ := placePoint_pointed hpos
  rw [htext]
  rcases le_or_gt 0 d.exp with hexp | hexp
  · obtain rfl := hpointed.integer hexp
    refine ⟨whole, [], ⟨by rw [dropPointZero_integer]; simp, hpointed.before, by simp⟩, ?_, by simp; omega, by simp⟩
    rw [← hpointed.value]
    simp [pointValue, Nat.ofDigitChars_cons]
  · obtain ⟨hlength, hlast⟩ := hpointed.places hexp
    have hne : fraction ≠ [] := by
      rw [Ne, ← List.length_eq_zero_iff]
      omega
    -- No zero stands in the last place, so what is behind the point is not `0` either.
    have hlast' := hlast ▸ getLast_toDigits hd
    have hzero : fraction ≠ ['0'] := by
      rintro rfl
      exact hlast' rfl
    refine ⟨whole, fraction, ⟨?_, hpointed.before, hpointed.behind⟩, hpointed.value, by omega, hlast'⟩
    rw [dropPointZero_fraction whole hpointed.behind hne hzero, if_neg hne]

end Thumbnailer
