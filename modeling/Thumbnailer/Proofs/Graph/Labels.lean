import Std.Data.String.ToInt
import Thumbnailer.Graph

/-!
# Labels do not collide

The labels that outputs get from their indices: two of them are equal only for the same index and the same
purpose, and none is the label of the source.
-/

namespace Thumbnailer

/-! ## Numbers in labels -/

theorem toString_int_inj {i j : Int} (h : toString i = toString j) : i = j := Int.repr_injective h

theorem not_mem_toString_int (i : Int) : 't' ∉ (toString i).toList := by
  have hdigit (n : Nat) : 't' ∉ n.repr.toList := by
    rw [Nat.toList_repr]
    intro h
    exact absurd (Nat.isDigit_of_mem_toDigits (by omega) (by omega) h) (by decide)
  change 't' ∉ (Int.repr i).toList
  cases i with
  | ofNat n => exact hdigit n
  | negSucc n =>
    rw [Int.repr, String.toList_append]
    simpa using hdigit (n + 1)

theorem toString_int_ne_append_out (i j : Int) : toString i ≠ toString j ++ "-out" := by
  intro h
  apply not_mem_toString_int i
  rw [h, String.toList_append]
  exact List.mem_append_right _ (by decide)

/-! ## Labels of outputs -/

namespace Output

theorem names_of_isSprites {o : Output} (h : o.isSprites = true) (i : Int) :
    o.names i = ⟨i, "sprites-" ++ toString i, "sprites-" ++ toString i ++ "-out"⟩ := by
  rw [names, if_pos h]
  rfl

theorem names_of_not_isSprites {o : Output} (h : o.isSprites = false) (i : Int) :
    o.names i = ⟨i, "", "thumbs-" ++ toString i ++ "-out"⟩ := by
  rw [names, if_neg (by simp [h])]
  rfl

theorem sprites_ne_thumbs (s t : String) : "sprites-" ++ s ≠ "thumbs-" ++ t := by
  intro h
  have := congrArg String.toList h
  rw [String.toList_append, String.toList_append] at this
  simp at this

theorem names_output_inj {o p : Output} {i j : Int} (h : (o.names i).output = (p.names j).output) : i = j := by
  cases ho : o.isSprites <;> cases hp : p.isSprites <;>
    simp only [names_of_isSprites, names_of_not_isSprites, ho, hp, String.append_assoc] at h
  · exact toString_int_inj ((String.append_left_inj _).1 ((String.append_right_inj _).1 h))
  · exact absurd h.symm (sprites_ne_thumbs _ _)
  · exact absurd h (sprites_ne_thumbs _ _)
  · exact toString_int_inj ((String.append_left_inj _).1 ((String.append_right_inj _).1 h))

theorem names_input_inj {o p : Output} (ho : o.isSprites = true) (hp : p.isSprites = true) {i j : Int}
    (h : (o.names i).input = (p.names j).input) : i = j := by
  simp only [names_of_isSprites, ho, hp] at h
  exact toString_int_inj ((String.append_right_inj _).1 h)

theorem names_input_ne_output {o : Output} (ho : o.isSprites = true) (p : Output) (i j : Int) :
    (o.names i).input ≠ (p.names j).output := by
  intro h
  cases hp : p.isSprites <;>
    simp only [names_of_isSprites, names_of_not_isSprites, ho, hp, String.append_assoc] at h
  · exact sprites_ne_thumbs _ _ h
  · exact toString_int_ne_append_out i j ((String.append_right_inj _).1 h)

theorem names_output_ne_source (o : Output) (i : Int) : (o.names i).output ≠ sourceLabel := by
  intro h
  have := congrArg String.toList h
  cases ho : o.isSprites <;>
    simp [names_of_isSprites, names_of_not_isSprites, ho, sourceLabel] at this

theorem names_input_ne_source {o : Output} (ho : o.isSprites = true) (i : Int) :
    (o.names i).input ≠ sourceLabel := by
  intro h
  have := congrArg String.toList h
  simp [names_of_isSprites ho, sourceLabel] at this

end Output

end Thumbnailer
