import Thumbnailer.Proofs.Number.Layout
import Thumbnailer.Proofs.Number.Rounded

/-!
# Intervals are written exactly

The seconds of an interval are rounded to a binary64 number and written as its shortest decimal. Up to nine digits
before the point that number tells microseconds apart, and the shortest decimal is the interval itself; with more it is
still read back as the same number.
-/

namespace Thumbnailer.Interval

open Double

/-! ## The number of seconds -/

section Bounds
variable {m : Nat} {e : Int} {q : ℚ} (hq : Inside m e q)
include hq

theorem lt_of_inside (h : Form m e) : q < 2 ^ (e + 53) := by
  have hpos : (0 : ℚ) < 2 ^ (e - 2) := by positivity
  have hmant : (m : ℚ) + 1 ≤ 2 ^ 53 := by exact_mod_cast h.mant
  rw [two_zpow_units 55 (by omega : e + 53 = e - 2 + (55 : Nat))]
  refine hq.upper.trans_lt ?_
  gcongr
  linarith

theorem inside_gt (hfull : 2 ^ 52 ≤ m) : 2 ^ (e + 51) < q := by
  have hpos : (0 : ℚ) < 2 ^ (e - 2) := by positivity
  have hmant : (2 : ℚ) ^ 52 ≤ m := by exact_mod_cast hfull
  have hslack : (slack m e : ℚ) ≤ 2 := by exact_mod_cast slack_le m e
  rw [two_zpow_units 53 (by omega : e + 51 = e - 2 + (53 : Nat))]
  refine lt_of_lt_of_le ?_ hq.lower
  gcongr
  linarith

end Bounds

/-- A number of seconds from a millisecond on, in the form it is rounded to. -/
structure Seconds (q : ℚ) (m : Nat) (e : Int) : Prop where
  form : Form m e
  inside : Inside m e q
  full : 2 ^ 52 ≤ m
  least : -62 ≤ e
  most : e ≤ -5

theorem exponent_lt_of_lt {a b : Int} (h : (2 : ℚ) ^ a < 2 ^ b) : a < b :=
  (zpow_lt_zpow_iff_right₀ (by norm_num : (1 : ℚ) < 2)).1 h

theorem seconds_rounded {n : Int} (hmin : 1000 ≤ n) (hmax : n ≤ 86399999999999999999) :
    ∃ m e, seconds n = .finite false m e ∧ Seconds (n / 10 ^ 6) m e := by
  have hlow : (1000 : ℚ) ≤ n := by exact_mod_cast hmin
  have hhigh : (n : ℚ) ≤ 86399999999999999999 := by exact_mod_cast hmax
  have hnat : ((n.natAbs : Nat) : ℚ) = n := by
    rw [← Int.cast_natCast, Int.natAbs_of_nonneg (by omega)]
  have hratio : (n.natAbs : ℚ) / (perSecond : Nat) = n / 10 ^ 6 := by
    rw [hnat, perSecond]
    norm_num
  -- At most 47 bits stand before the point, and the leading one is no lower than a thousandth needs.
  have hbelow : (n : ℚ) / 10 ^ 6 < 2 ^ (47 : Int) := by
    rw [div_lt_iff₀ (by norm_num)]
    norm_num
    linarith
  have habove : (2 : ℚ) ^ (-10 : Int) < n / 10 ^ 6 := by
    rw [lt_div_iff₀ (by norm_num)]
    norm_num
    linarith
  have hpos : 0 < n.natAbs := by omega
  have hden : 0 < perSecond := by decide
  obtain ⟨m, e, heq, hform, hinside⟩ := ofRatio_inside hpos hden (hratio ▸ hbelow.le) (by norm_num)
  rw [hratio] at hinside
  have hleast := exponent_lt_of_lt (habove.trans (lt_of_inside hinside hform))
  have hfull : 2 ^ 52 ≤ m := hform.full.resolve_right (by omega)
  have hmost := exponent_lt_of_lt ((inside_gt hinside hfull).trans hbelow)
  refine ⟨m, e, ?_, hform, hinside, hfull, by omega, by omega⟩
  rw [seconds, decide_eq_false (by omega)]
  exact heq

/-! ## The decimal -/

section Written
variable {q : ℚ} {m : Nat} {e : Int} (h : Seconds q m e)
include h

theorem Seconds.coarsest : Coarsest m e (shortest m e) := by
  have := h.full
  exact shortest_coarsest h.form (by omega)

theorem Seconds.last : ¬ 10 ∣ (shortest m e).digits := by
  rintro ⟨c, hc⟩
  refine h.coarsest.coarsest ((shortest m e).exp + 1) (by omega) c ?_
  have hsame : (c : ℚ) * 10 ^ ((shortest m e).exp + 1) = (shortest m e).toRat := by
    rw [Decimal.toRat, hc, zpow_add_one₀ (by norm_num)]
    push_cast
    ring
  rw [hsame]
  exact h.coarsest.inside

theorem Seconds.layOut : (shortest m e).layOut .plain =
    placePoint (Nat.toDigits 10 (shortest m e).digits)
      ((Nat.toDigits 10 (shortest m e).digits).length + (shortest m e).exp) := by
  have hinside := h.coarsest.inside
  have hlast := h.last
  generalize shortest m e = d at hinside hlast ⊢
  -- Powers of two and of ten on both sides leave the point between the bounds of the plain layout.
  have hleast : (10 : ℚ) ^ (-4 : Int) < 10 ^ ((Nat.toDigits 10 d.digits).length + d.exp) := by
    calc (10 : ℚ) ^ (-4 : Int) < 2 ^ (-11 : Int) := by norm_num
      _ ≤ 2 ^ (e + 51) := zpow_le_zpow_right₀ (by norm_num) (by have := h.least; omega)
      _ < d.toRat := inside_gt hinside h.full
      _ < _ := toRat_lt d
  have hmost : (10 : ℚ) ^ ((Nat.toDigits 10 d.digits).length - 1 + d.exp) < 10 ^ (15 : Int) := by
    calc _ ≤ d.toRat := le_toRat (Nat.pos_of_ne_zero fun hzero => hlast (by simp [hzero]))
      _ < 2 ^ (e + 53) := lt_of_inside hinside h.form
      _ ≤ 2 ^ (48 : Int) := zpow_le_zpow_right₀ (by norm_num) (by have := h.most; omega)
      _ < 10 ^ (15 : Int) := by norm_num
  have hleast' := (zpow_lt_zpow_iff_right₀ (by norm_num : (1 : ℚ) < 10)).1 hleast
  have hmost' := (zpow_lt_zpow_iff_right₀ (by norm_num : (1 : ℚ) < 10)).1 hmost
  have hpoint : -3 ≤ (Nat.toDigits 10 d.digits).length + d.exp ∧ (Nat.toDigits 10 d.digits).length + d.exp ≤ 16 := by
    omega
  unfold Decimal.layOut
  simp only
  rw [if_pos]
  exact Bool.and_eq_true_iff.2 ⟨decide_eq_true hpoint.1, decide_eq_true hpoint.2⟩

theorem Seconds.text {n : Int} (hn : seconds n = .finite false m e) :
    (text n).toList = dropPointZero (placePoint (Nat.toDigits 10 (shortest m e).digits)
      ((Nat.toDigits 10 (shortest m e).digits).length + (shortest m e).exp)) := by
  have hm : ¬ m = 0 := by
    have := h.full
    omega
  rw [Interval.text, String.toList_ofList, hn, Double.text, String.toList_ofList, ← h.layOut]
  simp only [if_neg hm]
  rfl

theorem Seconds.exponent_of_small (hsmall : q < 10 ^ 9) : e ≤ -22 := by
  have hbits : (2 : ℚ) ^ (e + 51) < 2 ^ (30 : Int) := by
    calc (2 : ℚ) ^ (e + 51) < q := inside_gt h.inside h.full
      _ < 10 ^ 9 := hsmall
      _ < 2 ^ (30 : Int) := by norm_num
  have := exponent_lt_of_lt hbits
  omega

end Written

/-! ## Up to nine digits before the point -/

theorem toRat_microseconds {d : Decimal} (hd : -6 ≤ d.exp) :
    d.toRat = ((d.digits * 10 ^ (d.exp + 6).toNat : Nat) : ℚ) / 10 ^ 6 := by
  have hpow : (10 : ℚ) ^ (d.exp + 6).toNat = 10 ^ d.exp * 10 ^ 6 := by
    rw [← zpow_natCast, Int.toNat_of_nonneg (by omega), zpow_add₀ (by norm_num)]
    norm_num
  rw [Decimal.toRat, Nat.cast_mul, Nat.cast_pow, Nat.cast_ofNat, hpow]
  field_simp

theorem dvd_microseconds {d : Decimal} (hd : -6 ≤ d.exp) (hlast : ¬ 10 ∣ d.digits) :
    10 ^ 6 ∣ d.digits * 10 ^ (d.exp + 6).toNat ↔ 0 ≤ d.exp := by
  constructor
  · intro hdvd
    by_contra hneg
    have hmore : 10 * 10 ^ (d.exp + 6).toNat ∣ 10 ^ 6 := by
      rw [← pow_succ']
      exact pow_dvd_pow 10 (by omega)
    exact hlast (Nat.dvd_of_mul_dvd_mul_right (by positivity) (hmore.trans hdvd))
  · intro hexp
    exact (pow_dvd_pow 10 (by omega)).mul_left _

section Exact
variable {m : Nat} {e : Int} (he : e ≤ -22)
include he

theorem not_inside_both {a b : Nat} (ha : Inside m e (a / 10 ^ 6)) (hb : Inside m e (b / 10 ^ 6)) : ¬ a < b := by
  intro hlt
  have hlower := ha.lower
  have hupper := hb.upper
  have hnext : (a : ℚ) + 1 ≤ b := by exact_mod_cast hlt
  have hslack : (slack m e : ℚ) * 2 ^ (e - 2) ≤ 2 * 2 ^ (e - 2) := by
    gcongr
    exact_mod_cast slack_le m e
  have hunit : (2 : ℚ) ^ (e - 2) ≤ 2 ^ (-24 : Int) := zpow_le_zpow_right₀ (by norm_num) (by omega)
  norm_num at hunit hlower hupper
  linarith

/-- Only one number of microseconds is rounded to a number of so many places. -/
theorem microseconds_unique {a b : Nat} (ha : Inside m e (a / 10 ^ 6)) (hb : Inside m e (b / 10 ^ 6)) : a = b :=
  Nat.le_antisymm (Nat.not_lt.1 (not_inside_both he hb ha)) (Nat.not_lt.1 (not_inside_both he ha hb))

/-- The shortest decimal is the number of microseconds. -/
theorem Seconds.exact {n : Nat} (h : Seconds (n / 10 ^ 6) m e) :
    -6 ≤ (shortest m e).exp ∧ (shortest m e).digits * 10 ^ ((shortest m e).exp + 6).toNat = n := by
  have hcoarsest := h.coarsest
  generalize shortest m e = d at hcoarsest ⊢
  have hleast : -6 ≤ d.exp := by
    refine not_lt.1 fun hlt => hcoarsest.coarsest (-6) hlt n ?_
    have hgrid : (n : ℚ) * 10 ^ (-6 : Int) = n / 10 ^ 6 := by
      norm_num
      ring
    exact hgrid ▸ h.inside
  exact ⟨hleast, microseconds_unique he (toRat_microseconds hleast ▸ hcoarsest.inside) h.inside⟩

end Exact

/-- **Intervals are written exactly.** The text of an interval is plain digits, with a point or without, and denotes a
decimal that has the same nearest number as the interval. Below `10 ^ 15` microseconds the decimal is the interval, with
at most six digits behind the point, no zero at their end, and no point behind whole seconds. -/
theorem text_denotes (n : Int) (hmin : 1000 ≤ n) (hmax : n ≤ 86399999999999999999) :
    ∃ whole fraction, Plainly (text n).toList whole fraction ∧
      (Nearest (n / 10 ^ 6) (seconds n) ∧ Nearest (pointValue whole fraction) (seconds n)) ∧
      (n < 10 ^ 15 → pointValue whole fraction = n / 10 ^ 6 ∧ fraction.length ≤ 6 ∧ fraction.getLast? ≠ some '0' ∧
        (fraction = [] ↔ 10 ^ 6 ∣ n)) := by
  obtain ⟨m, e, hseconds, h⟩ := seconds_rounded hmin hmax
  have hpos : (0 : ℚ) < n := by exact_mod_cast (by omega : 0 < n)
  have hlast := h.last
  obtain ⟨whole, fraction, hplain, hvalue, hlength, hzero⟩ := dropPointZero_plainly hlast
  rw [← h.text hseconds] at hplain
  have hdecimal : (0 : ℚ) < pointValue whole fraction := by
    have hdigits : 0 < (shortest m e).digits := Nat.pos_of_ne_zero fun h => hlast (by simp [h])
    rw [hvalue, Decimal.toRat]
    positivity
  refine ⟨whole, fraction, hplain, ?_, fun hsmall => ?_⟩
  · rw [hseconds]
    exact ⟨h.inside.nearest h.form (by positivity), (hvalue ▸ h.coarsest.inside).nearest h.form hdecimal⟩
  obtain ⟨n, rfl⟩ := Int.eq_ofNat_of_zero_le (by omega : 0 ≤ n)
  rw [Int.cast_natCast] at h
  have hnine : (n : ℚ) / 10 ^ 6 < 10 ^ 9 := by
    rw [div_lt_iff₀ (by norm_num), ← pow_add]
    exact_mod_cast hsmall
  obtain ⟨hleast, hdigits⟩ := Seconds.exact (h.exponent_of_small hnine) h
  have hinteger : fraction = [] ↔ 0 ≤ (shortest m e).exp := by
    rw [← List.length_eq_zero_iff]
    omega
  refine ⟨?_, by omega, hzero, ?_⟩
  · rw [hvalue, toRat_microseconds hleast, hdigits, Int.cast_natCast]
  · rw [hinteger, ← dvd_microseconds hleast hlast, hdigits]
    exact_mod_cast Iff.rfl

/-- An interval that is written in full, and the longest one, whose text is only read back as the same number. -/
theorem text_denotes_fraction :
    (∃ whole fraction, Plainly (text 1234560).toList whole fraction ∧ pointValue whole fraction = 1.23456 ∧
      fraction.length ≤ 6 ∧ fraction ≠ []) ∧
    ∃ whole fraction, Plainly (text 86399999999999999999).toList whole fraction ∧
      Nearest (pointValue whole fraction) (seconds 86399999999999999999) := by
  obtain ⟨whole, fraction, hplain, -, hexact⟩ := text_denotes 1234560 (by norm_num) (by norm_num)
  obtain ⟨hvalue, hlength, -, hinteger⟩ := hexact (by norm_num)
  obtain ⟨whole', fraction', hplain', ⟨-, hnearest⟩, -⟩ :=
    text_denotes 86399999999999999999 (by norm_num) (by norm_num)
  refine ⟨⟨whole, fraction, hplain, ?_, hlength, ?_⟩, whole', fraction', hplain', hnearest⟩
  · rw [hvalue]
    norm_num
  · rw [Ne, hinteger]
    decide

end Thumbnailer.Interval
