import Thumbnailer.Proofs.Number.Nearest

/-!
# Ratios are rounded to the nearest number

The last place of a ratio leaves 53 bits in front of it, and the integer nearest to that many units is the mantissa.
-/

namespace Thumbnailer.Double

/-! ## The nearest integer -/

/-- What is rounded lies at most half a unit off, and less than that off an odd integer. -/
structure HalfUnit (num den r : Nat) : Prop where
  upper : 2 * num ≤ (2 * r + 1) * den
  lower : 2 * r * den ≤ 2 * num + den
  strict : r % 2 = 1 → 2 * num < (2 * r + 1) * den ∧ 2 * r * den < 2 * num + den

theorem roundHalfEven_halfUnit (num : Nat) {den : Nat} (hden : 0 < den) : HalfUnit num den (roundHalfEven num den) := by
  have hnum := Nat.div_add_mod num den
  have hrem := Nat.mod_lt num hden
  have hdown : (2 * (num / den) + 1) * den = 2 * (den * (num / den)) + den := by ring
  have hdown' : 2 * (num / den) * den = 2 * (den * (num / den)) := by ring
  have hup : (2 * (num / den + 1) + 1) * den = 2 * (den * (num / den)) + 3 * den := by ring
  have hup' : 2 * (num / den + 1) * den = 2 * (den * (num / den)) + 2 * den := by ring
  unfold roundHalfEven
  simp only
  split
  · exact ⟨by omega, by omega, fun _ => by omega⟩
  · split
    · exact ⟨by omega, by omega, fun _ => by omega⟩
    · split
      · exact ⟨by omega, by omega, fun _ => by omega⟩
      · exact ⟨by omega, by omega, fun _ => by omega⟩

/-! ## Units of the last place -/

theorem scaled_pos (num : Nat) {den : Nat} (hden : 0 < den) (e : Int) : 0 < (scaled num den e).2 := by
  unfold scaled
  split
  · exact Nat.mul_pos hden (Nat.pow_pos (by omega))
  · exact hden

theorem scaled_eq (num : Nat) {den : Nat} (hden : 0 < den) (e : Int) :
    ((scaled num den e).1 : ℚ) / (scaled num den e).2 * 2 ^ e = num / den := by
  have hne : (den : ℚ) ≠ 0 := by positivity
  unfold scaled
  split
  · next h =>
    have hpow : (2 : ℚ) ^ e = 2 ^ e.toNat := by rw [← zpow_natCast, Int.toNat_of_nonneg h]
    rw [hpow, Nat.pow_eq]
    push_cast
    field_simp
  · next h =>
    have hpow : (2 : ℚ) ^ e = (2 ^ (-e).toNat)⁻¹ := by
      rw [← zpow_natCast, Int.toNat_of_nonneg (by omega), zpow_neg, inv_inv]
    rw [hpow, Nat.pow_eq]
    push_cast
    field_simp

/-- The last place of a ratio leaves at most 53 bits in front of it, and fewer only if there is no lower place. -/
structure LastPlace (q : ℚ) (e : Int) : Prop where
  least : -1074 ≤ e
  below : q < 2 ^ 53 * 2 ^ e
  full : e = -1074 ∨ 2 ^ 52 * 2 ^ e ≤ q

/-- The leading bits of numerator and denominator tell where the leading bit of the ratio is, up to one place. -/
theorem ratio_bounds {num den : Nat} (hnum : 0 < num) (hden : 0 < den) :
    2 ^ 51 * 2 ^ ((num.log2 : Int) - den.log2 - 52) < (num : ℚ) / den ∧
      (num : ℚ) / den < 2 ^ 53 * 2 ^ ((num.log2 : Int) - den.log2 - 52) := by
  have hpos : (0 : ℚ) < den := by exact_mod_cast hden
  have hnumlow : (2 : ℚ) ^ num.log2 ≤ num := by exact_mod_cast Nat.log2_self_le (by omega)
  have hnumhigh : (num : ℚ) < 2 ^ (num.log2 + 1) := by exact_mod_cast Nat.lt_log2_self
  have hdenlow : (2 : ℚ) ^ den.log2 ≤ den := by exact_mod_cast Nat.log2_self_le (by omega)
  have hdenhigh : (den : ℚ) < 2 ^ (den.log2 + 1) := by exact_mod_cast Nat.lt_log2_self
  -- All factors are powers of two, so that only exponents are to be compared.
  have hplaces : ∀ a b c : Nat, (a : Int) - 52 - den.log2 + b = c - num.log2 →
      (2 : ℚ) ^ a * 2 ^ ((num.log2 : Int) - den.log2 - 52) * 2 ^ b = 2 ^ c := by
    intro a b c h
    rw [← zpow_natCast, ← zpow_natCast, ← zpow_natCast, ← zpow_add₀ two_ne_zero, ← zpow_add₀ two_ne_zero]
    congr 1
    omega
  have hlow := hplaces 51 (den.log2 + 1) num.log2 (by push_cast; ring)
  have hhigh := hplaces 53 den.log2 (num.log2 + 1) (by push_cast; ring)
  constructor
  · rw [lt_div_iff₀ hpos]
    calc _ < 2 ^ 51 * 2 ^ ((num.log2 : Int) - den.log2 - 52) * 2 ^ (den.log2 + 1) := by gcongr
      _ = 2 ^ num.log2 := hlow
      _ ≤ num := hnumlow
  · rw [div_lt_iff₀ hpos]
    calc (num : ℚ) < 2 ^ (num.log2 + 1) := hnumhigh
      _ = 2 ^ 53 * 2 ^ ((num.log2 : Int) - den.log2 - 52) * 2 ^ den.log2 := hhigh.symm
      _ ≤ _ := by gcongr

/-- The integer test for the leading bit is one on the ratio. -/
theorem scaled_lt_iff (num : Nat) {den : Nat} (hden : 0 < den) (e : Int) :
    (scaled num den e).1 < Nat.pow 2 52 * (scaled num den e).2 ↔ (num : ℚ) / den < 2 ^ 52 * 2 ^ e := by
  have hpos : (0 : ℚ) < (scaled num den e).2 := by exact_mod_cast scaled_pos num hden e
  have hpow : (0 : ℚ) < 2 ^ e := by positivity
  rw [← scaled_eq num hden e, mul_lt_mul_iff_of_pos_right hpow, div_lt_iff₀ hpos, Nat.pow_eq]
  exact_mod_cast Iff.rfl

theorem lastPlace_spec {num den : Nat} (hnum : 0 < num) (hden : 0 < den) :
    LastPlace (num / den) (lastPlace num den) := by
  obtain ⟨hlow, hhigh⟩ := ratio_bounds hnum hden
  -- The place is known up to one before the least place is looked at.
  obtain ⟨e, he, hbelow, hfull⟩ : ∃ e : Int, lastPlace num den = max e (-1074) ∧
      (num : ℚ) / den < 2 ^ 53 * 2 ^ e ∧ 2 ^ 52 * 2 ^ e ≤ (num : ℚ) / den := by
    unfold lastPlace
    simp only [scaled_lt_iff num hden]
    have hhalf := two_zpow_half ((num.log2 : Int) - den.log2 - 52)
    split
    · next h => exact ⟨_, rfl, by linarith, by linarith⟩
    · next h => exact ⟨_, rfl, hhigh, not_lt.1 h⟩
  rw [he]
  refine ⟨le_max_right _ _, hbelow.trans_le ?_, ?_⟩
  · gcongr
    · norm_num
    · exact le_max_left _ _
  · rcases le_total e (-1074) with hle | hle
    · exact .inl (max_eq_right hle)
    · exact .inr (by rwa [max_eq_left hle])

/-! ## The nearest number -/

/-- A ratio lies half a unit around the integer it is rounded to. -/
structure Around (q : ℚ) (r : Nat) (e : Int) : Prop where
  lower : (4 * r - 2) * 2 ^ (e - 2) ≤ q
  upper : q ≤ (4 * r + 2) * 2 ^ (e - 2)
  strict : r % 2 = 1 → (4 * r - 2) * 2 ^ (e - 2) < q ∧ q < (4 * r + 2) * 2 ^ (e - 2)

theorem HalfUnit.around {n d r : Nat} (h : HalfUnit n d r) (hd : 0 < d) (e : Int) : Around (n / d * 2 ^ e) r e := by
  have hpos : (0 : ℚ) < d := by exact_mod_cast hd
  have hunits : (n : ℚ) / d * 2 ^ e = 4 * n / d * 2 ^ (e - 2) := by
    rw [two_zpow_quarters]
    ring
  have hupper : (2 : ℚ) * n ≤ (2 * r + 1) * d := by exact_mod_cast h.upper
  have hlower : (2 : ℚ) * r * d ≤ 2 * n + d := by exact_mod_cast h.lower
  -- A quarter of the last place is the unit, in which all bounds are integers times `d`.
  rw [hunits]
  refine ⟨?_, ?_, fun hodd => ?_⟩
  · gcongr
    rw [le_div_iff₀ hpos]
    linarith
  · gcongr
    rw [div_le_iff₀ hpos]
    linarith
  · have hupper' : (2 : ℚ) * n < (2 * r + 1) * d := by exact_mod_cast (h.strict hodd).1
    have hlower' : (2 : ℚ) * r * d < 2 * n + d := by exact_mod_cast (h.strict hodd).2
    constructor
    · gcongr
      rw [lt_div_iff₀ hpos]
      linarith
    · gcongr
      rw [div_lt_iff₀ hpos]
      linarith

theorem exponent_le {q : ℚ} {bits e top : Int} (h : 2 ^ bits * 2 ^ e ≤ q) (hle : q ≤ 2 ^ top) : bits + e ≤ top := by
  rw [← zpow_add₀ two_ne_zero] at h
  exact (zpow_le_zpow_iff_right₀ (by norm_num : (1 : ℚ) < 2)).1 (h.trans hle)

theorem exponent_lt {q : ℚ} {bits e top : Int} (h : 2 ^ bits * 2 ^ e < q) (hle : q ≤ 2 ^ top) : bits + e < top := by
  rw [← zpow_add₀ two_ne_zero] at h
  exact (zpow_lt_zpow_iff_right₀ (by norm_num : (1 : ℚ) < 2)).1 (h.trans_le hle)

section Make
variable {q : ℚ} {r : Nat} {e top : Int} (hplace : LastPlace q e) (haround : Around q r e) (hle : q ≤ 2 ^ top)
  (htop : top ≤ 1023)
include hplace haround hle htop

/-- Where rounding makes one more bit, the mantissa is the least one of the next exponent. -/
theorem make_carried (hr : r = 2 ^ 53) :
    make false r e = .finite false (2 ^ 52) (e + 1) ∧ Form (2 ^ 52) (e + 1) ∧ Inside (2 ^ 52) (e + 1) q := by
  have hleast := hplace.least
  have hpos : (0 : ℚ) < 2 ^ (e - 2) := by positivity
  have hlower := haround.lower
  have hbelow := hplace.below
  rw [hr] at hlower
  push_cast at hlower
  have hunit : (2 : ℚ) ^ (e + 1 - 2) = 2 * 2 ^ (e - 2) := by
    rw [← two_zpow_quarter]
    congr 1
    ring
  have hplaces := two_zpow_quarters e
  -- The ratio is large enough for the next exponent, and the bound on it leaves one more.
  have hexp : e + 1 ≤ 971 := by
    have hbits : (2 : ℚ) ^ (52 : Int) * 2 ^ e < q := by
      rw [hplaces]
      norm_num at hlower ⊢
      linarith
    have := exponent_lt hbits hle
    omega
  refine ⟨?_, ⟨by norm_num, by omega, hexp, .inl le_rfl⟩, ?_⟩
  · unfold make
    simp only [Nat.pow_eq, hr, if_true]
    rw [if_neg (by omega)]
  · have hslack : slack (2 ^ 52) (e + 1) = 1 := if_pos ⟨rfl, by omega⟩
    rw [hplaces] at hbelow
    refine ⟨?_, ?_, fun hodd => absurd hodd (by norm_num)⟩
    · rw [hslack, hunit]
      push_cast
      linarith
    · rw [hunit]
      push_cast
      linarith

theorem make_kept (hr : r < 2 ^ 53) :
    make false r e = .finite false r e ∧ Form r e ∧ Inside r e q := by
  have hleast := hplace.least
  have hpos : (0 : ℚ) < 2 ^ (e - 2) := by positivity
  have hplaces := two_zpow_quarters e
  have hexp : e ≤ 971 := by
    rcases hplace.full with heq | hfull
    · omega
    · have hbits : (2 : ℚ) ^ (52 : Int) * 2 ^ e ≤ q := by exact_mod_cast hfull
      have := exponent_le hbits hle
      omega
  have hform : 2 ^ 52 ≤ r ∨ e = -1074 := by
    refine hplace.full.symm.imp_left fun hfull => ?_
    have hupper := haround.upper
    rw [hplaces] at hfull
    have hr : (4 * 2 ^ 52 : ℚ) ≤ 4 * r + 2 := by
      refine le_of_mul_le_mul_right ?_ hpos
      linarith
    have : 4 * 2 ^ 52 ≤ 4 * r + 2 := by exact_mod_cast hr
    omega
  refine ⟨?_, ⟨hr, hleast, hexp, hform⟩, ?_⟩
  · unfold make
    simp only [Nat.pow_eq, if_neg hr.ne]
    rw [if_neg (by omega)]
  · by_cases hmin : r = 2 ^ 52 ∧ e > -1074
    · -- Nothing below the least full mantissa is rounded to it here: it would have a lower last place.
      have hslack : slack r e = 1 := if_pos hmin
      have hfull := hplace.full.resolve_left (by omega)
      rw [hplaces] at hfull
      refine ⟨?_, haround.upper, fun hodd => absurd hodd (by rw [hmin.1]; norm_num)⟩
      rw [hslack, hmin.1]
      push_cast
      linarith
    · have hslack : slack r e = 2 := if_neg hmin
      refine ⟨?_, haround.upper, fun hodd => ?_⟩
      · rw [hslack]
        exact haround.lower
      · rw [hslack]
        exact haround.strict hodd

end Make

/-- A ratio lies in the interval of the number that it is rounded to. -/
theorem ofRatio_inside {num den : Nat} (hnum : 0 < num) (hden : 0 < den) {top : Int}
    (hle : (num : ℚ) / den ≤ 2 ^ top) (htop : top ≤ 1023) :
    ∃ m e, ofRatio false num den = .finite false m e ∧ Form m e ∧ Inside m e (num / den) := by
  have hplace := lastPlace_spec hnum hden
  have haround := (roundHalfEven_halfUnit (scaled num den (lastPlace num den)).1
    (scaled_pos num hden (lastPlace num den))).around (scaled_pos num hden _) (lastPlace num den)
  rw [scaled_eq num hden] at haround
  have hratio : ofRatio false num den =
      make false (roundHalfEven (scaled num den (lastPlace num den)).1 (scaled num den (lastPlace num den)).2)
        (lastPlace num den) := if_neg (by omega)
  generalize lastPlace num den = e at hplace haround hratio
  generalize roundHalfEven (scaled num den e).1 (scaled num den e).2 = r at haround hratio
  rw [hratio]
  rcases lt_trichotomy r (2 ^ 53) with hr | hr | hr
  · exact ⟨_, _, make_kept hplace haround hle htop hr⟩
  · exact ⟨_, _, make_carried hplace haround hle htop hr⟩
  · -- There are at most so many units.
    exfalso
    have hpos : (0 : ℚ) < 2 ^ (e - 2) := by positivity
    have hlower := haround.lower
    have hbelow := hplace.below
    rw [two_zpow_quarters] at hbelow
    have hmul : (4 * r - 2 : ℚ) < 2 ^ 55 := by
      refine lt_of_mul_lt_mul_right ?_ hpos.le
      linarith
    have : (2 : ℚ) ^ 53 + 1 ≤ r := by exact_mod_cast hr
    linarith

end Thumbnailer.Double
