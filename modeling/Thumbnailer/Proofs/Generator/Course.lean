import Mathlib.Data.Prod.Lex
import Thumbnailer.Proofs.Generator.Filed

/-!
# What happens by itself comes to an end

Calls lower the rank of the generator when they go on. Those who wait can look again as often as calls wake them,
so what is ahead of them is compared first: `step?_course`.
-/

namespace Thumbnailer.Generator

variable {g g' : Generator} {a : Action} {w : Nat} {wait : Wait}

/-- How many actions are ahead of somebody who waits, not counting looks after which he waits again. -/
def WaitPhase.ahead : WaitPhase → Nat
  | .arriving => 3
  | .waiting => 2
  | .closing => 1
  | .returned => 0

def waitsAhead (g : Generator) : Nat := (g.waits.map fun w => w.phase.ahead).sum

/-- What is ahead of those who wait, what is ahead of the calls, and how many were woken to look again; the first
difference decides. -/
def course (g : Generator) : ℕ ×ₗ ℕ ×ₗ ℕ := toLex (g.waitsAhead, toLex (g.rank, g.woken.length))

theorem waitsAhead_set (g' : Generator) {new : Wait} (hw : g.waits[w]? = some wait)
    (hwaits : g'.waits = g.waits.set w new) :
    g'.waitsAhead + wait.phase.ahead = g.waitsAhead + new.phase.ahead := by
  rw [waitsAhead, hwaits]
  exact sum_map_set_add (fun w : Wait => w.phase.ahead) hw new

theorem look_eq_some (h : g.step? (.look w) = some g') : ∃ wait, g.waits[w]? = some wait ∧
    (wait.phase = .arriving ∨ (wait.phase = .waiting ∧ w ∈ g.woken)) ∧ g' = g.lookAt w wait := by
  simp only [step?] at h
  split at h
  next wait hw =>
    obtain ⟨hguard, h⟩ := Option.ite_none_right_eq_some.1 h
    exact ⟨wait, hw, by simpa using hguard, (Option.some.inj h).symm⟩
  next => cases h

theorem look_course (h : g.step? (.look w) = some g') : g'.course < g.course := by
  obtain ⟨wait, hw, hphase, rfl⟩ := look_eq_some h
  refine Prod.Lex.toLex_lt_toLex.2 ?_
  by_cases hzero : g.outstanding = 0
  · -- He has waited long enough.
    have hset := waitsAhead_set (g.lookAt w wait) hw (by simp [lookAt, hzero]; rfl)
    rcases hphase with hphase | ⟨hphase, -⟩ <;> cases hcloses : wait.closes <;>
      simp only [hphase, hcloses, WaitPhase.ahead, if_true, Bool.false_eq_true, if_false] at hset <;> omega
  · have hset := waitsAhead_set (g.lookAt w wait) hw
      (show (g.lookAt w wait).waits = g.waits.set w { wait with phase := .waiting } by simp [lookAt, hzero])
    rcases hphase with hphase | ⟨hphase, hwoken⟩
    · simp only [hphase, WaitPhase.ahead] at hset
      omega
    · simp only [hphase, WaitPhase.ahead, Nat.add_right_cancel_iff] at hset
      refine .inr ⟨hset, Prod.Lex.toLex_lt_toLex.2 (.inr ⟨?_, ?_⟩)⟩
      · simp only [lookAt, hzero, if_false]
        rfl
      · have hpositive := List.length_pos_of_mem hwoken
        simp only [lookAt, hzero, if_false, List.length_erase_of_mem hwoken]
        omega

/-- Everything that happens by itself brings the generator further. -/
theorem step?_course (hg : Backed g) (ha : a.spontaneous = true) (h : g.step? a = some g') :
    g'.course < g.course := by
  rcases own_of_spontaneous ha with ⟨hown, -⟩ | ⟨w, rfl⟩ | ⟨w, rfl⟩
  -- A call may wake those who wait, so the number of the woken counts last.
  · obtain ⟨c, hc⟩ := Option.isSome_iff_exists.1 hown
    obtain ⟨k, r, -, -, k', ds, htouched, -⟩ := step?_acted h hc
    refine Prod.Lex.toLex_lt_toLex.2 (.inr ⟨?_, Prod.Lex.toLex_lt_toLex.2 (.inl (step?_rank hg h hown))⟩)
    exact congrArg (fun waits : List Wait => (waits.map fun w => w.phase.ahead).sum) htouched.waits
  · exact look_course h
  · cases step?_apart h rfl with
    | shut w closes pool hw hpool =>
      have hset := waitsAhead_set { g with pool, waits := g.waits.set w ⟨closes, .returned⟩ } hw rfl
      refine Prod.Lex.toLex_lt_toLex.2 (.inl ?_)
      simp only [WaitPhase.ahead] at hset
      omega

end Thumbnailer.Generator
