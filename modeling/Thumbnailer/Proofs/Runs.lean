import Mathlib.Data.List.Induction

/-!
# Runs of machines

A machine does one action after the other. What an action makes of its state, if it can happen, is told by a step
function; a run is any list of actions that can happen in turn.
-/

namespace Thumbnailer

section
variable {σ α : Type} (step : σ → α → Option σ)

/-- The state after some actions, if they can happen one after the other. -/
def runFrom? (s : σ) : List α → Option σ
  | [] => some s
  | a :: rest => (step s a).bind fun t => runFrom? t rest

theorem runFrom?_eq_foldlM (s : σ) (as : List α) : runFrom? step s as = as.foldlM step s := by
  induction as generalizing s with
  | nil => rfl
  | cons a rest ih =>
    rw [runFrom?, List.foldlM_cons]
    exact congrArg _ (funext ih)

theorem runFrom?_append (s : σ) (as bs : List α) :
    runFrom? step s (as ++ bs) = (runFrom? step s as).bind fun t => runFrom? step t bs := by
  simp only [runFrom?_eq_foldlM, List.foldlM_append]
  rfl

theorem runFrom?_cons {s t : σ} {a : α} (h : step s a = some t) (as : List α) :
    runFrom? step s (a :: as) = runFrom? step t as := by
  rw [runFrom?, h, Option.bind_some]

theorem runFrom?_one (s : σ) (a : α) : runFrom? step s [a] = step s a := by
  rw [runFrom?]
  cases step s a <;> rfl

/-- What holds before a run and is kept by each step holds of every state that a run can come to. -/
theorem runFrom?_induction {P : List α → σ → Prop} {s t : σ} {as : List α} (hnil : P [] s)
    (hstep : ∀ as a t u, runFrom? step s as = some t → P as t → step t a = some u → P (as ++ [a]) u)
    (h : runFrom? step s as = some t) : P as t := by
  -- Runs grow at their end, so that a step starts where the run has come to.
  induction as using List.reverseRecOn generalizing t with
  | nil =>
    obtain rfl := Option.some.inj h
    exact hnil
  | append_singleton as a ih =>
    rw [runFrom?_append] at h
    obtain ⟨u, hu, ht⟩ := Option.bind_eq_some_iff.1 h
    rw [runFrom?_one] at ht
    exact hstep as a u t hu (ih hu) ht

end

end Thumbnailer
