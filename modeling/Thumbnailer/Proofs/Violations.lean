import Thumbnailer.Output.Slots
import Thumbnailer.Plan

/-!
# Which outputs break a rule

Whether an output breaks a rule depends neither on its position nor on its destination, and a list breaks none
if it has outputs and none of them does.
-/

namespace Thumbnailer

theorem check_eq_none {c : Prop} [Decidable c] {v : Violation} {later : Option Violation} :
    (if c then some v else later) = none ↔ ¬ c ∧ later = none := by
  by_cases h : c <;> simp [h]

theorem kindViolation?_eq_none (o : Output) (i j : Nat) :
    o.kindViolation? i = none ↔ o.kindViolation? j = none := by
  unfold Output.kindViolation?
  split
  · simp only [check_eq_none]
  · simp
  · simp

theorem violation?_eq_none_position (o : Output) (i j : Nat) : o.violation? i = none ↔ o.violation? j = none := by
  have hkind := kindViolation?_eq_none o i j
  unfold Output.violation?
  cases hi : o.kindViolation? i <;> cases hj : o.kindViolation? j <;> rw [hi, hj] at hkind
  · simp only [check_eq_none]
  · simp at hkind
  · simp at hkind
  · simp only [check_eq_none, reduceCtorEq]

theorem firstViolation?_eq_none (outputs : List Output) (position : Nat) :
    firstViolation? position outputs = none ↔ ∀ o ∈ outputs, o.violation? 0 = none := by
  induction outputs generalizing position with
  | nil => simp [firstViolation?]
  | cons o rest ih =>
    rw [firstViolation?, List.forall_mem_cons, ← ih (position + 1), violation?_eq_none_position o 0 position]
    cases o.violation? position <;> simp

theorem violation?_eq_none (outputs : List Output) :
    violation? outputs = none ↔ outputs ≠ [] ∧ ∀ o ∈ outputs, o.violation? 0 = none := by
  unfold violation?
  cases outputs with
  | nil => simp
  | cons o rest => simp [firstViolation?_eq_none]

theorem violation?_one {outputs : List Output} (h : violation? outputs = none) {o : Output} (ho : o ∈ outputs) :
    violation? [o] = none := by
  rw [violation?_eq_none] at h ⊢
  exact ⟨by simp, by simpa using h.2 o ho⟩

theorem violation?_withDestination (o : Output) (i : Nat) : o.withDestination.violation? i = o.violation? i := by
  unfold Output.withDestination
  split <;> rfl

theorem violation?_map_withDestination (outputs : List Output) :
    violation? (outputs.map Output.withDestination) = none ↔ violation? outputs = none := by
  simp [violation?_eq_none, violation?_withDestination]

end Thumbnailer
