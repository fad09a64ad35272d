import Mathlib.Data.Nat.Find
import Thumbnailer.Number.Shortest
import Thumbnailer.Proofs.Number.Nearest

/-!
# The shortest decimal is read back

Decimals with one last place are a grid. The two points of it around a number tell if the interval of the number holds
any; from a grid so coarse that it holds none, the search comes to one so fine that it must.
-/

namespace Thumbnailer

def Decimal.toRat (d : Decimal) : ℚ := d.digits * 10 ^ d.exp

namespace Double

/-! ## The interval of a number -/

section Interval
variable {m : Nat} {e : Int} {a b x : ℚ}

theorem Inside.between (ha : Inside m e a) (hb : Inside m e b) (hax : a ≤ x) (hxb : x ≤ b) : Inside m e x where
  lower := ha.lower.trans hax
  upper := hxb.trans hb.upper
  strict hodd := ⟨(ha.strict hodd).1.trans_le hax, hxb.trans_lt (hb.strict hodd).2⟩

theorem slack_pos (m : Nat) (e : Int) : 0 < slack m e := by
  unfold slack
  split <;> omega

theorem inside_value (m : Nat) (e : Int) : Inside m e (value m e) := by
  have hpos : (0 : ℚ) < 2 ^ (e - 2) := by positivity
  have hslack : (0 : ℚ) < slack m e := by exact_mod_cast slack_pos m e
  have hlower : (4 * m - slack m e : ℚ) * 2 ^ (e - 2) < value m e := by
    rw [value_quarters]
    gcongr
    linarith
  have hupper : value m e < (4 * m + 2 : ℚ) * 2 ^ (e - 2) := by
    rw [value_quarters]
    gcongr
    linarith
  exact ⟨hlower.le, hupper.le, fun _ => ⟨hlower, hupper⟩⟩

theorem inside_above (hle : value m e ≤ x) (hlt : x < value m e + 2 ^ (e - 1)) : Inside m e x := by
  have hself := inside_value m e
  have hupper : x < (4 * m + 2 : ℚ) * 2 ^ (e - 2) := by
    rw [value_quarters, two_zpow_quarter] at hlt
    linarith
  exact ⟨hself.lower.trans hle, hupper.le, fun hodd => ⟨(hself.strict hodd).1.trans_le hle, hupper⟩⟩

end Interval

/-! ## Grids -/

theorem gridFactors_unit (j q : Int) :
    ∃ unit : ℚ, 0 < unit ∧ 10 ^ j * unit = (gridFactors j q).1 ∧ 2 ^ q * unit = (gridFactors j q).2 := by
  have hten : (10 : ℚ) ^ j * 10 ^ (-j).toNat = 10 ^ j.toNat := by
    rw [← zpow_natCast, ← zpow_natCast, ← zpow_add₀ (by norm_num)]
    congr 1
    omega
  have htwo : (2 : ℚ) ^ q * 2 ^ (-q).toNat = 2 ^ q.toNat := by
    rw [← zpow_natCast, ← zpow_natCast, ← zpow_add₀ (by norm_num)]
    congr 1
    omega
  refine ⟨10 ^ (-j).toNat * 2 ^ (-q).toNat, by positivity, ?_, ?_⟩
  · simp only [gridFactors, Nat.pow_eq]
    push_cast
    rw [← hten]
    ring
  · simp only [gridFactors, Nat.pow_eq]
    push_cast
    rw [← htwo]
    ring

theorem grid_lt_iff (c v : Nat) (j q : Int) :
    (c : ℚ) * 10 ^ j < v * 2 ^ q ↔ c * (gridFactors j q).1 < v * (gridFactors j q).2 := by
  obtain ⟨unit, hpos, hten, htwo⟩ := gridFactors_unit j q
  rw [← mul_lt_mul_iff_of_pos_right hpos, mul_assoc, mul_assoc, hten, htwo]
  exact_mod_cast Iff.rfl

theorem lt_grid_iff (c v : Nat) (j q : Int) :
    (v : ℚ) * 2 ^ q < c * 10 ^ j ↔ v * (gridFactors j q).2 < c * (gridFactors j q).1 := by
  obtain ⟨unit, hpos, hten, htwo⟩ := gridFactors_unit j q
  rw [← mul_lt_mul_iff_of_pos_right hpos, mul_assoc, mul_assoc, hten, htwo]
  exact_mod_cast Iff.rfl

theorem grid_le_iff (c v : Nat) (j q : Int) :
    (c : ℚ) * 10 ^ j ≤ v * 2 ^ q ↔ c * (gridFactors j q).1 ≤ v * (gridFactors j q).2 := by
  rw [← not_lt, lt_grid_iff, Nat.not_lt]

theorem le_grid_iff (c v : Nat) (j q : Int) :
    (v : ℚ) * 2 ^ q ≤ c * 10 ^ j ↔ v * (gridFactors j q).2 ≤ c * (gridFactors j q).1 := by
  rw [← not_lt, grid_lt_iff, Nat.not_lt]

theorem gridFactors_pos (j q : Int) : 0 < (gridFactors j q).1 := by
  unfold gridFactors
  exact Nat.mul_pos (Nat.pow_pos (by omega)) (Nat.pow_pos (by omega))

section Grid
variable (m : Nat) (e j : Int)

/-- The point of a grid at or below a number. -/
def below : Nat := 4 * m * (gridFactors j (e - 2)).2 / (gridFactors j (e - 2)).1

theorem below_le : (below m e j : ℚ) * 10 ^ j ≤ value m e := by
  have hle := Nat.div_mul_le_self (4 * m * (gridFactors j (e - 2)).2) (gridFactors j (e - 2)).1
  rw [value_quarters]
  exact_mod_cast (grid_le_iff (below m e j) (4 * m) j (e - 2)).2 hle

theorem lt_above : value m e < (below m e j + 1 : Nat) * 10 ^ j := by
  have hlt := Nat.lt_div_mul_add (a := 4 * m * (gridFactors j (e - 2)).2) (gridFactors_pos j (e - 2))
  have := (lt_grid_iff (below m e j + 1) (4 * m) j (e - 2)).2 (by rw [Nat.add_mul, Nat.one_mul]; exact hlt)
  rw [value_quarters]
  exact_mod_cast this

/-- The test that a point of a grid lies in the interval, in integers. -/
def isInside (c : Nat) : Bool :=
  let (a, b) := gridFactors j (e - 2)
  let least := (4 * m - if m = Nat.pow 2 52 && e > -1074 then 1 else 2) * b
  let most := (4 * m + 2) * b
  if m % 2 = 0 then least ≤ c * a && c * a ≤ most else least < c * a && c * a < most

/-- Of two points in the interval the one that is nearer, or even. -/
def nearerPoint : Nat :=
  let (a, b) := gridFactors j (e - 2)
  let middle := (below m e j + (below m e j + 1)) * a
  if 8 * m * b < middle then below m e j
  else if middle < 8 * m * b then below m e j + 1
  else if below m e j % 2 = 0 then below m e j else below m e j + 1

theorem onGrid?_eq :
    onGrid? m e j =
      if isInside m e j (below m e j) then
        if isInside m e j (below m e j + 1) then some (nearerPoint m e j) else some (below m e j)
      else if isInside m e j (below m e j + 1) then some (below m e j + 1)
      else none := by
  unfold onGrid? nearerPoint
  simp only [apply_ite some]
  rfl

variable {m} (hm : 0 < m)

include hm in
theorem isInside_iff (c : Nat) : isInside m e j c = true ↔ Inside m e (c * 10 ^ j) := by
  have hslack : (if m = Nat.pow 2 52 && e > -1074 then 1 else 2) = slack m e := by
    simp [slack]
  have hroom : ((4 * m - slack m e : Nat) : ℚ) = 4 * m - slack m e := by
    have := slack_le m e
    rw [Nat.cast_sub (by omega)]
    push_cast
    rfl
  have hlower := le_grid_iff c (4 * m - slack m e) j (e - 2)
  have hlower' := lt_grid_iff c (4 * m - slack m e) j (e - 2)
  have hupper := grid_le_iff c (4 * m + 2) j (e - 2)
  have hupper' := grid_lt_iff c (4 * m + 2) j (e - 2)
  rw [hroom] at hlower hlower'
  push_cast at hupper hupper'
  unfold isInside
  simp only [hslack]
  -- An even mantissa takes the ends of the interval in, an odd one does not.
  by_cases heven : m % 2 = 0
  · rw [if_pos heven, Bool.and_eq_true, decide_eq_true_eq, decide_eq_true_eq, ← hlower, ← hupper]
    exact ⟨fun ⟨hl, hu⟩ => ⟨hl, hu, by omega⟩, fun h => ⟨h.lower, h.upper⟩⟩
  · rw [if_neg heven, Bool.and_eq_true, decide_eq_true_eq, decide_eq_true_eq, ← hlower', ← hupper']
    exact ⟨fun ⟨hl, hu⟩ => ⟨hl.le, hu.le, fun _ => ⟨hl, hu⟩⟩, fun h => h.strict (by omega)⟩

theorem nearerPoint_cases : nearerPoint m e j = below m e j ∨ nearerPoint m e j = below m e j + 1 := by
  unfold nearerPoint
  simp only
  split
  · exact .inl rfl
  · split
    · exact .inr rfl
    · split
      · exact .inl rfl
      · exact .inr rfl

include hm

theorem onGrid?_inside {c : Nat} (h : onGrid? m e j = some c) : Inside m e (c * 10 ^ j) := by
  rw [onGrid?_eq] at h
  split at h
  · next hbelow =>
    split at h
    · next habove =>
      obtain rfl := Option.some.inj h
      obtain heq | heq := nearerPoint_cases e j (m := m) <;> rw [heq]
      · exact (isInside_iff e j hm _).1 hbelow
      · exact (isInside_iff e j hm _).1 habove
    · obtain rfl := Option.some.inj h
      exact (isInside_iff e j hm _).1 hbelow
  · split at h
    · next habove =>
      obtain rfl := Option.some.inj h
      exact (isInside_iff e j hm _).1 habove
    · cases h

theorem not_inside_of_onGrid? (h : onGrid? m e j = none) (c : Nat) : ¬ Inside m e (c * 10 ^ j) := by
  intro hc
  have hpos : (0 : ℚ) < 10 ^ j := by positivity
  have hnone : ¬ isInside m e j (below m e j) = true ∧ ¬ isInside m e j (below m e j + 1) = true := by
    rw [onGrid?_eq] at h
    split at h
    · split at h <;> cases h
    · next hbelow =>
      split at h
      · cases h
      · next habove => exact ⟨hbelow, habove⟩
  rw [isInside_iff e j hm, isInside_iff e j hm] at hnone
  rcases Nat.lt_or_ge (below m e j) c with hlt | hle
  · refine hnone.2 ((inside_value m e).between hc (lt_above m e j).le ?_)
    gcongr
    exact hlt
  · refine hnone.1 (hc.between (inside_value m e) ?_ (below_le m e j))
    gcongr

/-- A grid with points less than half a unit apart has one that is read back. -/
theorem exists_onGrid? (hfine : (10 : ℚ) ^ j < 2 ^ (e - 1)) : onGrid? m e j ≠ none := by
  intro h
  refine not_inside_of_onGrid? e j hm h (below m e j + 1) (inside_above (lt_above m e j).le ?_)
  have hbelow := below_le m e j
  push_cast
  linarith

end Grid

/-! ## The search -/

theorem findSome?_range {α : Type} {f : Nat → Option α} {n k : Nat} (hk : k < n) (hfound : f k ≠ none) :
    ∃ i a, i ≤ k ∧ f i = some a ∧ (∀ i' < i, f i' = none) ∧ (List.range n).findSome? f = some a := by
  classical
  have hexists : ∃ i, f i ≠ none := ⟨k, hfound⟩
  obtain ⟨a, ha⟩ := Option.ne_none_iff_exists'.1 (Nat.find_spec hexists)
  have hfirst : ∀ i' < Nat.find hexists, f i' = none := fun i' hi' => not_not.1 (Nat.find_min hexists hi')
  have hle : Nat.find hexists ≤ k := Nat.find_min' hexists hfound
  generalize Nat.find hexists = i at ha hfirst hle
  refine ⟨i, a, hle, ha, hfirst, List.findSome?_eq_some_iff.2 ?_⟩
  refine ⟨List.range i, i, (List.range (n - i - 1)).map (i + 1 + ·), ?_, ha, fun i' hi' => ?_⟩
  swap
  · exact hfirst i' (List.mem_range.1 hi')
  have hn : n = i + 1 + (n - i - 1) := by omega
  conv_lhs => rw [hn, List.range_add, List.range_succ]
  simp

/-- Places for which the search is wide enough: the first grid is above the number, the last one fine. -/
def wideEnough (e : Int) : Bool :=
  let (a, b) := gridFactors (decimalTop e) (e + 54)
  let (a', b') := gridFactors (decimalTop e - 24) (e - 1)
  b < a && a' < b'

theorem wideEnough_all : ((List.range 2046).all fun i => wideEnough (i - 1074)) = true := by decide +kernel

theorem decimalTop_bounds {e : Int} (hleast : -1074 ≤ e) (hmost : e ≤ 971) :
    (2 : ℚ) ^ (e + 54) < 10 ^ decimalTop e ∧ (10 : ℚ) ^ (decimalTop e - 24) < 2 ^ (e - 1) := by
  have hwide := List.all_eq_true.1 wideEnough_all (e + 1074).toNat (List.mem_range.2 (by omega))
  have he : ((e + 1074).toNat : Int) - 1074 = e := by omega
  rw [he] at hwide
  unfold wideEnough at hwide
  simp only [Bool.and_eq_true, decide_eq_true_eq] at hwide
  have htop := (lt_grid_iff 1 1 (decimalTop e) (e + 54)).2 (by omega)
  have hfine := (grid_lt_iff 1 1 (decimalTop e - 24) (e - 1)).2 (by omega)
  rw [Nat.cast_one, one_mul, one_mul] at htop hfine
  exact ⟨htop, hfine⟩

/-- A decimal that is read back, from the coarsest grid that has one. -/
structure Coarsest (m : Nat) (e : Int) (d : Decimal) : Prop where
  inside : Inside m e d.toRat
  coarsest : ∀ j, d.exp < j → ∀ c : Nat, ¬ Inside m e (c * 10 ^ j)

section Search
variable {m : Nat} {e : Int} (h : Form m e) (hm : 0 < m)
include h hm

/-- Points of the first grid and of coarser ones are not read back. -/
theorem not_inside_above {j : Int} (hj : decimalTop e ≤ j) (c : Nat) : ¬ Inside m e (c * 10 ^ j) := by
  intro hc
  have hpos : (0 : ℚ) < 2 ^ (e - 2) := by positivity
  -- The point zero is too low, and all others are too high.
  rcases Nat.eq_zero_or_pos c with rfl | hcpos
  · have hroom : (0 : ℚ) < 4 * m - slack m e := by
      have hslack := slack_le m e
      have : slack m e < 4 * m := by omega
      have : (slack m e : ℚ) < 4 * m := by exact_mod_cast this
      linarith
    have hlower := hc.lower
    rw [Nat.cast_zero, zero_mul] at hlower
    exact absurd hlower (not_le.2 (by positivity))
  · have htop := (decimalTop_bounds h.least h.most).1
    have hpoint : (10 : ℚ) ^ decimalTop e ≤ c * 10 ^ j := by
      have hone : (1 : ℚ) ≤ c := by exact_mod_cast hcpos
      calc (10 : ℚ) ^ decimalTop e ≤ 10 ^ j := zpow_le_zpow_right₀ (by norm_num) hj
        _ ≤ c * 10 ^ j := le_mul_of_one_le_left (by positivity) hone
    have hmant : (m : ℚ) < 2 ^ 53 := by exact_mod_cast h.mant
    have hplaces := two_zpow_units 56 (by omega : e + 54 = e - 2 + (56 : Nat))
    have hupper : (4 * m + 2 : ℚ) * 2 ^ (e - 2) < 2 ^ 56 * 2 ^ (e - 2) := by
      gcongr
      linarith
    linarith [hc.upper]

theorem shortest_coarsest : Coarsest m e (shortest m e) := by
  obtain ⟨htop, hfine⟩ := decimalTop_bounds h.least h.most
  obtain ⟨k, d, -, hd, hfirst, hsearch⟩ := findSome?_range (n := 25) (k := 24)
    (f := fun k : Nat => (onGrid? m e (decimalTop e - k)).map fun c => Decimal.mk c (decimalTop e - k)) (by omega) (by
      simpa using exists_onGrid? e (decimalTop e - 24) hm hfine)
  have hshortest : shortest m e = d := by
    unfold shortest
    rw [hsearch]
    rfl
  obtain ⟨c, hc, rfl⟩ := Option.map_eq_some_iff.1 hd
  rw [hshortest]
  refine ⟨onGrid?_inside e _ hm hc, fun j hj c' => ?_⟩
  rcases le_or_gt (decimalTop e) j with hle | hlt
  · exact not_inside_above h hm hle c'
  · -- The search has passed this grid.
    have hpassed := Option.map_eq_none_iff.1 (hfirst (decimalTop e - j).toNat (by simp only at hj; omega))
    have hj' : decimalTop e - (decimalTop e - j).toNat = j := by omega
    rw [hj'] at hpassed
    exact not_inside_of_onGrid? e j hm hpassed c'

end Search

/-! ## The number of digits -/

theorem toRat_lt (d : Decimal) : d.toRat < 10 ^ ((Nat.toDigits 10 d.digits).length + d.exp) := by
  have hdigits : d.digits < 10 ^ (Nat.toDigits 10 d.digits).length :=
    (Nat.length_toDigits_le_iff (by omega) Nat.length_toDigits_pos).1 le_rfl
  rw [zpow_add₀ (by norm_num), zpow_natCast, Decimal.toRat]
  gcongr
  exact_mod_cast hdigits

theorem le_toRat {d : Decimal} (hd : 0 < d.digits) :
    (10 : ℚ) ^ ((Nat.toDigits 10 d.digits).length - 1 + d.exp) ≤ d.toRat := by
  have hpos := Nat.length_toDigits_pos (b := 10) (n := d.digits)
  have hdigits : 10 ^ ((Nat.toDigits 10 d.digits).length - 1) ≤ d.digits := by
    rcases Nat.eq_zero_or_pos ((Nat.toDigits 10 d.digits).length - 1) with hone | hmore
    · rw [hone]
      exact hd
    · exact Nat.not_lt.1 fun hlt => absurd ((Nat.length_toDigits_le_iff (by omega) hmore).2 hlt) (by omega)
  rw [zpow_add₀ (by norm_num), ← Nat.cast_pred hpos, zpow_natCast, Decimal.toRat]
  gcongr
  exact_mod_cast hdigits

end Double

end Thumbnailer
