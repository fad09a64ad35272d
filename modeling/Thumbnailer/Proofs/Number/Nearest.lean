import Mathlib.Algebra.Order.Field.Power
import Mathlib.Algebra.Order.Field.Rat
import Mathlib.Tactic.FieldSimp
import Mathlib.Tactic.Linarith
import Mathlib.Tactic.NormNum
import Mathlib.Tactic.Positivity
import Mathlib.Tactic.Ring
import Thumbnailer.Number.Double

/-!
# The nearest binary64 number

Finite numbers are `± m · 2 ^ e` in one form, and next to each of them lies the interval of what is rounded to it: half
way to the next number above, and half way to the next below, which is nearer if the mantissa is the least one. The
bounds belong to it if the mantissa is even.
-/

namespace Thumbnailer.Double

/-! ## Finite numbers -/

/-- The mantissa and exponent of a finite number: the mantissa has 53 bits, or the exponent is the least one. -/
structure Form (m : Nat) (e : Int) : Prop where
  mant : m < 2 ^ 53
  least : -1074 ≤ e
  most : e ≤ 971
  full : 2 ^ 52 ≤ m ∨ e = -1074

def value (m : Nat) (e : Int) : ℚ := m * 2 ^ e

def IsFinite : Double → Prop
  | .finite _ m e => Form m e
  | _ => False

def toRat : Double → ℚ
  | .finite negative m e => if negative then -value m e else value m e
  | _ => 0

def IsEven : Double → Prop
  | .finite _ m _ => m % 2 = 0
  | _ => False

/-- No finite number is nearer, and if another one is as near, this one is even. -/
structure Nearest (q : ℚ) (x : Double) : Prop where
  finite : x.IsFinite
  nearest : ∀ y : Double, y.IsFinite → |q - x.toRat| ≤ |q - y.toRat|
  even : ∀ y : Double, y.IsFinite → y.toRat ≠ x.toRat → |q - x.toRat| = |q - y.toRat| → x.IsEven

theorem form_zero : Form 0 (-1074) := ⟨by norm_num, by norm_num, by norm_num, .inr rfl⟩

theorem value_zero (e : Int) : value 0 e = 0 := by simp [value]

/-! ## Gaps -/

theorem value_nonneg (m : Nat) (e : Int) : 0 ≤ value m e := by
  unfold value
  positivity

theorem two_zpow_units {a b : Int} (k : Nat) (h : a = b + k) : (2 : ℚ) ^ a = 2 ^ k * 2 ^ b := by
  rw [h, zpow_add₀ two_ne_zero, zpow_natCast, mul_comm]

theorem two_zpow_half (e : Int) : (2 : ℚ) ^ e = 2 * 2 ^ (e - 1) := by
  rw [two_zpow_units 1 (by omega : e = e - 1 + (1 : Nat)), pow_one]

theorem value_at (n : Nat) {e f : Int} (h : e ≤ f) : value n f = (n * 2 ^ (f - e).toNat : Nat) * 2 ^ e := by
  rw [value, two_zpow_units (f - e).toNat (by omega : f = e + (f - e).toNat)]
  push_cast
  ring

theorem value_lower {n : Nat} {e f : Int} (h : Form n f) (hlt : f < e) : value n f ≤ (2 ^ 53 - 1) * 2 ^ (e - 1) := by
  have hmant : (n : ℚ) ≤ 2 ^ 53 - 1 := by
    have : n + 1 ≤ 2 ^ 53 := h.mant
    have : (n : ℚ) + 1 ≤ 2 ^ 53 := by exact_mod_cast this
    linarith
  have hpow : (2 : ℚ) ^ f ≤ 2 ^ (e - 1) := zpow_le_zpow_right₀ (by norm_num) (by omega)
  unfold value
  gcongr

theorem value_full {m : Nat} {e : Int} (h : Form m e) (hlt : -1074 < e) : 2 ^ 52 * 2 ^ e ≤ value m e := by
  have hfull : (2 : ℚ) ^ 52 ≤ m := by exact_mod_cast h.full.resolve_right (by omega)
  unfold value
  gcongr

section Gaps
variable {m n : Nat} {e f : Int} (h : Form m e) (h' : Form n f)
include h h'

theorem value_lt_of_exp_lt (hlt : f < e) : value n f < value m e := by
  have hpos : (0 : ℚ) < 2 ^ (e - 1) := by positivity
  have hlow := value_lower h' hlt
  have hfull := value_full h (by have := h'.least; omega)
  rw [two_zpow_half] at hfull
  linarith

/-- Every number has one form. -/
theorem form_unique (heq : value m e = value n f) : m = n := by
  rcases lt_trichotomy e f with hlt | rfl | hlt
  · exact absurd heq (value_lt_of_exp_lt h' h hlt).ne
  · have hpos : (0 : ℚ) < 2 ^ e := by positivity
    exact_mod_cast mul_right_cancel₀ hpos.ne' heq
  · exact absurd heq (value_lt_of_exp_lt h h' hlt).ne'

theorem gap_above (hlt : value m e < value n f) : value m e + 2 ^ e ≤ value n f := by
  have hpos : (0 : ℚ) < 2 ^ e := by positivity
  rcases lt_or_ge f e with hfe | hef
  · exact absurd hlt (value_lt_of_exp_lt h h' hfe).not_gt
  · rw [value_at n hef] at hlt ⊢
    have hnat : m < n * 2 ^ (f - e).toNat := by exact_mod_cast lt_of_mul_lt_mul_right hlt hpos.le
    have hnext : (m : ℚ) + 1 ≤ (n * 2 ^ (f - e).toNat : Nat) := by exact_mod_cast hnat
    calc value m e + 2 ^ e = ((m : ℚ) + 1) * 2 ^ e := by rw [value]; ring
      _ ≤ _ := by gcongr

/-- Half the gap to the next number below, in quarters of the last place: there is less room below the least full
mantissa, where the next number has a lower exponent. -/
def slack (m : Nat) (e : Int) : Nat := if m = 2 ^ 52 ∧ e > -1074 then 1 else 2

omit h h' in
theorem slack_le (m : Nat) (e : Int) : slack m e ≤ 2 := by
  unfold slack
  split <;> omega

theorem gap_below (hlt : value n f < value m e) : value n f + slack m e * 2 ^ (e - 1) ≤ value m e := by
  have hpos : (0 : ℚ) < 2 ^ e := by positivity
  have hhalf := two_zpow_half e
  rcases lt_or_ge f e with hfe | hef
  · have hlow := value_lower h' hfe
    have hfull : 2 ^ 52 ≤ m := h.full.resolve_right (by have := h'.least; omega)
    -- The lower number has smaller units, so it is below all full mantissas of the higher one.
    by_cases hleast : m = 2 ^ 52
    · have hslack : slack m e = 1 := if_pos ⟨hleast, by have := h'.least; omega⟩
      have hm : value m e = 2 ^ 52 * 2 ^ e := by
        rw [value, hleast]
        push_cast
        ring
      rw [hslack, Nat.cast_one]
      linarith
    · have hm : (2 : ℚ) ^ 52 + 1 ≤ m := by
        have : 2 ^ 52 + 1 ≤ m := by omega
        exact_mod_cast this
      have hslack : slack m e = 2 := if_neg fun hboth => hleast hboth.1
      have hmul : ((2 : ℚ) ^ 52 + 1) * 2 ^ e ≤ value m e := by
        unfold value
        gcongr
      rw [hslack, Nat.cast_ofNat]
      linarith
  · rw [value_at n hef] at hlt ⊢
    -- In the units of the higher number the lower one is an integer below the mantissa.
    have hnat : n * 2 ^ (f - e).toNat < m := by exact_mod_cast lt_of_mul_lt_mul_right hlt hpos.le
    have hnext : ((n * 2 ^ (f - e).toNat : Nat) : ℚ) + 1 ≤ m := by exact_mod_cast hnat
    have hslack : (slack m e : ℚ) ≤ 2 := by exact_mod_cast slack_le m e
    have hunit : (slack m e : ℚ) * 2 ^ (e - 1) ≤ 2 ^ e := by
      rw [hhalf]
      gcongr
    calc ((n * 2 ^ (f - e).toNat : Nat) : ℚ) * 2 ^ e + slack m e * 2 ^ (e - 1)
        ≤ (((n * 2 ^ (f - e).toNat : Nat) : ℚ) + 1) * 2 ^ e := by linarith
      _ ≤ value m e := by unfold value; gcongr

end Gaps

/-! ## What is rounded to a number -/

/-- The numbers that are rounded to `m · 2 ^ e`, in quarters of the last place. -/
structure Inside (m : Nat) (e : Int) (q : ℚ) : Prop where
  lower : (4 * m - slack m e) * 2 ^ (e - 2) ≤ q
  upper : q ≤ (4 * m + 2) * 2 ^ (e - 2)
  strict : m % 2 = 1 → (4 * m - slack m e) * 2 ^ (e - 2) < q ∧ q < (4 * m + 2) * 2 ^ (e - 2)

theorem two_zpow_quarter (e : Int) : (2 : ℚ) ^ (e - 1) = 2 * 2 ^ (e - 2) := by
  rw [two_zpow_units 1 (by omega : e - 1 = e - 2 + (1 : Nat)), pow_one]

theorem two_zpow_quarters (e : Int) : (2 : ℚ) ^ e = 4 * 2 ^ (e - 2) := by
  rw [two_zpow_half, two_zpow_quarter]
  ring

theorem value_quarters (m : Nat) (e : Int) : value m e = 4 * m * 2 ^ (e - 2) := by
  rw [value, two_zpow_quarters]
  ring

section Nearest
variable {m : Nat} {e : Int} {q : ℚ} (h : Form m e) (hq : Inside m e q)
include h hq

theorem Inside.nearer {n : Nat} {f : Int} (h' : Form n f) (hne : value n f ≠ value m e) :
    |q - value m e| ≤ |q - value n f| ∧ (|q - value m e| = |q - value n f| → m % 2 = 0) := by
  have hpos : (0 : ℚ) < 2 ^ (e - 2) := by positivity
  have hlower := hq.lower
  have hupper := hq.upper
  have hodd : m % 2 = 0 ∨ m % 2 = 1 := by omega
  have hslack : (slack m e : ℚ) ≤ 2 := by exact_mod_cast slack_le m e
  have hslackpos : (0 : ℚ) < slack m e * 2 ^ (e - 2) := by
    have : 0 < slack m e := by unfold slack; split <;> omega
    positivity
  have hroom : (slack m e : ℚ) * 2 ^ (e - 2) ≤ 2 * 2 ^ (e - 2) := by gcongr
  have hvalue := value_quarters m e
  have hquarter := two_zpow_quarter e
  rcases lt_or_gt_of_ne hne with hlt | hgt
  · -- Below, the next number is as far away as the slack allows.
    have hgap := gap_below h h' hlt
    rw [hquarter] at hgap
    rw [abs_of_nonneg (by linarith : 0 ≤ q - value n f)]
    rcases le_total (value m e) q with hle | hle
    · rw [abs_of_nonneg (by linarith)]
      exact ⟨by linarith, fun heq => absurd heq (by linarith)⟩
    · rw [abs_of_nonpos (by linarith)]
      refine ⟨by linarith, fun heq => hodd.resolve_right fun hm => ?_⟩
      have := (hq.strict hm).1
      linarith
  · -- Above, it is one unit away, of which the interval holds half.
    have hgap := gap_above h h' hgt
    rw [two_zpow_half, hquarter] at hgap
    rw [abs_of_nonpos (by linarith : q - value n f ≤ 0)]
    rcases le_total (value m e) q with hle | hle
    · rw [abs_of_nonneg (by linarith)]
      refine ⟨by linarith, fun heq => hodd.resolve_right fun hm => ?_⟩
      have := (hq.strict hm).2
      linarith
    · rw [abs_of_nonpos (by linarith)]
      exact ⟨by linarith, fun heq => absurd heq (by linarith)⟩

theorem Inside.le_zero (hpos : 0 < q) : |q - value m e| ≤ q := by
  by_cases hv : value 0 (-1074) = value m e
  · rw [← hv, value_zero, sub_zero, abs_of_pos hpos]
  · have hnearer := (hq.nearer h form_zero hv).1
    rwa [value_zero, sub_zero, abs_of_pos hpos] at hnearer

theorem Inside.nearer_signed (hpos : 0 < q) {y : Double} (hy : y.IsFinite) (hne : y.toRat ≠ value m e) :
    |q - value m e| ≤ |q - y.toRat| ∧ (|q - value m e| = |q - y.toRat| → m % 2 = 0) := by
  match y, hy with
  | .finite false n f, hy => exact hq.nearer h hy hne
  | .finite true n f, hy =>
    rcases (value_nonneg n f).eq_or_lt with hzero | hbelow
    · have hsame : (Double.finite true n f).toRat = value n f := by simp [toRat, ← hzero]
      rw [hsame] at hne ⊢
      exact hq.nearer h hy hne
    · -- Numbers below zero are farther than zero is.
      have hfar : |q - (Double.finite true n f).toRat| = q + value n f := by
        simp only [toRat, if_true, sub_neg_eq_add]
        exact abs_of_pos (by linarith)
      have hle := hq.le_zero h hpos
      rw [hfar]
      exact ⟨by linarith, fun heq => absurd heq (by linarith)⟩

/-- A number in the interval is rounded to the number that the interval is around. -/
theorem Inside.nearest (hpos : 0 < q) : Nearest q (.finite false m e) where
  finite := h
  nearest y hy := by
    by_cases hne : y.toRat = value m e
    · rw [hne]
      rfl
    · exact (hq.nearer_signed h hpos hy hne).1
  even y hy hne heq := (hq.nearer_signed h hpos hy hne).2 heq

end Nearest

/-! ## There is one nearest number -/

section Unique
variable {q : ℚ} (hpos : 0 < q) {x y : Double}
include hpos

theorem Nearest.form (hx : Nearest q x) : ∃ m e, Form m e ∧ x.toRat = value m e ∧ (x.IsEven → m % 2 = 0) := by
  match x, hx.finite with
  | .finite false m e, h => exact ⟨m, e, h, rfl, id⟩
  | .finite true m e, h =>
    refine ⟨m, e, h, ?_, id⟩
    have hvalue := value_nonneg m e
    have hbelow : (Double.finite true m e).toRat = -value m e := rfl
    have hnearer := hx.nearest (.finite false 0 (-1074)) form_zero
    have hzero : (Double.finite false 0 (-1074)).toRat = 0 := value_zero _
    rw [hbelow, hzero, sub_zero, sub_neg_eq_add, abs_of_pos hpos, abs_of_pos (by linarith)] at hnearer
    linarith

theorem Nearest.not_below (hx : Nearest q x) (hy : Nearest q y) : ¬ x.toRat < y.toRat := by
  intro hlt
  have htie := le_antisymm (hx.nearest y hy.finite) (hy.nearest x hx.finite)
  obtain ⟨m, e, h, hm, hxeven⟩ := hx.form hpos
  obtain ⟨n, f, h', hn, hyeven⟩ := hy.form hpos
  have hmeven := hxeven (hx.even y hy.finite hlt.ne' htie)
  have hneven := hyeven (hy.even x hx.finite hlt.ne htie.symm)
  -- Both are even, so the next number above the lower one lies between them.
  have hnext : Form (m + 1) e := ⟨by have := h.mant; omega, h.least, h.most, by have := h.full; omega⟩
  have hvalue : value (m + 1) e = value m e + 2 ^ e := by
    unfold value
    push_cast
    ring
  have hunit : (0 : ℚ) < 2 ^ e := by positivity
  have hgap := gap_above h h' (hm ▸ hn ▸ hlt)
  have hmiddle : q - x.toRat = y.toRat - q := by
    rcases abs_eq_abs.1 htie with heq | heq <;> linarith
  rw [← hvalue] at hgap
  rcases hgap.lt_or_eq with hbetween | hsame
  · have hnearer := hy.nearest (.finite false (m + 1) e) hnext
    have hthis : (Double.finite false (m + 1) e).toRat = value (m + 1) e := rfl
    rw [abs_of_nonpos (by linarith : q - y.toRat ≤ 0), hthis] at hnearer
    exact absurd hnearer (not_le.2 (abs_lt.2 ⟨by linarith, by linarith⟩))
  · have := form_unique hnext h' hsame
    omega

theorem Nearest.unique (hx : Nearest q x) (hy : Nearest q y) : x.toRat = y.toRat :=
  le_antisymm (not_lt.1 (hy.not_below hpos hx)) (not_lt.1 (hx.not_below hpos hy))

end Unique

end Thumbnailer.Double
