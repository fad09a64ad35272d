import Mathlib.Algebra.GroupWithZero.Nat
import Thumbnailer.Pool.Schedule
import Thumbnailer.Proofs.Pool.Waiters

/-!
# Pools that settle

What happens by itself in a pool comes to an end: every such action lowers the rank of the pool, and so
`settle_settled` says that the scheduler stops only where nothing is left to happen by itself.
-/

namespace Thumbnailer

theorem sum_map_set_add {α : Type} (f : α → Nat) {l : List α} {i : Nat} {a : α} (h : l[i]? = some a) (b : α) :
    ((l.set i b).map f).sum + f a = (l.map f).sum + f b := by
  induction l generalizing i with
  | nil => simp at h
  | cons x rest ih =>
    cases i with
    | zero =>
      obtain rfl : x = a := by simpa using h
      simp only [List.set_cons_zero, List.map_cons, List.sum_cons]
      omega
    | succ i =>
      have hrest := ih (by simpa using h)
      simp only [List.set_cons_succ, List.map_cons, List.sum_cons]
      omega

theorem sum_map_le {α : Type} {f : α → Nat} {b : Nat} (h : ∀ a, f a ≤ b) (l : List α) :
    (l.map f).sum ≤ b * l.length := by
  induction l with
  | nil => simp
  | cons x rest ih =>
    have hx := h x
    rw [List.map_cons, List.sum_cons, List.length_cons, Nat.mul_succ]
    omega

namespace Pool

variable {p q : Pool} {a : Action} {as : List Action} {i j : Nat} {w : Waiter} {threads : Bool}

/-- The action happens by itself: somebody who is under way goes on. -/
def Action.spontaneous : Action → Bool
  | .enter _ | .start .. | .release _ | .look _ => true
  | _ => false

/-- Nothing is left to happen by itself. -/
def Settled (p : Pool) : Prop := ∀ a, a.spontaneous = true → p.step? a = none

/-! ## The rank of a pool -/

def phases (p : Pool) : List Phase := p.tasks.map Task.phase

theorem getElem?_phases (p : Pool) (i : Nat) : p.phases[i]? = p.phase? i := List.getElem?_map

theorem Moved.phases {old new : Phase} (h : Moved p q i old new) : q.phases = p.phases.set i new := by
  apply List.ext_getElem?
  intro k
  rw [getElem?_phases, List.getElem?_set]
  by_cases hk : i = k
  · have hlt : i < p.phases.length :=
      (List.getElem?_eq_some_iff.1 ((getElem?_phases p i).trans h.before)).1
    rw [if_pos hk, if_pos hlt, ← hk, h.after]
  · rw [if_neg hk, getElem?_phases, h.others k (Ne.symm hk)]

/-- An upper bound for the actions of its own that a task has ahead before it runs or has come to its end, not
counting looks by which its submitter stays where it is. -/
def Phase.ahead : Phase → Nat
  | .arriving => 4
  | .waiting => 3
  | .admitted _ => 2
  | .stuck _ | .ended _ => 1
  | _ => 0

def JoinPhase.ahead : JoinPhase → Nat
  | .arriving => 1
  | _ => 0

def work (p : Pool) : Nat := (p.phases.map Phase.ahead).sum + (p.joins.map JoinPhase.ahead).sum

/-- How many can wait at a pool. -/
def seats (p : Pool) : Nat := p.tasks.length + p.joins.length

/-- Each piece of work counts more than all who may be woken by it. -/
def rank (p : Pool) : Nat := p.work * (p.seats + 1) + p.woken.length

theorem Phase.ahead_le (phase : Phase) : phase.ahead ≤ 4 := by
  cases phase <;> simp [Phase.ahead]

theorem JoinPhase.ahead_le (phase : JoinPhase) : phase.ahead ≤ 1 := by
  cases phase <;> simp [JoinPhase.ahead]

theorem Moved.work {old new : Phase} (h : Moved p q i old new) (hjoins : q.joins = p.joins) :
    q.work + old.ahead = p.work + new.ahead := by
  have hset := sum_map_set_add Phase.ahead ((getElem?_phases p i).trans h.before) new
  rw [Pool.work, Pool.work, h.phases, hjoins]
  omega

theorem work_setJoin {old : JoinPhase} (h : p.MayLook j old) (new : JoinPhase) :
    ({ p with joins := p.joins.set j new } : Pool).work + old.ahead = p.work + new.ahead := by
  have hset := sum_map_set_add JoinPhase.ahead h.getElem? new
  have hphases : ({ p with joins := p.joins.set j new } : Pool).phases = p.phases := rfl
  rw [work, work, hphases]
  dsimp only
  omega

theorem Step.seats (h : Step p a q) (ha : a.spontaneous = true) : q.seats = p.seats := by
  cases h with
  | submit | tune | close | join => cases ha
  | _ => simp [Pool.seats, setPhase, unwake, giveBack, notifyAll]

theorem length_erase_lt (h : w ∈ p.woken) : (p.woken.erase w).length < p.woken.length := by
  have hpos : 0 < p.woken.length := List.length_pos_of_mem h
  rw [List.length_erase_of_mem h]
  omega

theorem Turn.ahead {old new : Phase} (h : Turn i a old new) (ha : a.spontaneous = true) :
    new.ahead < old.ahead ∨ (a = .enter i ∧ old = .waiting ∧ new = .waiting) := by
  cases h with
  | wait old hold =>
    cases old with
    | arriving => exact .inl (by simp [Phase.ahead])
    | waiting => exact .inr ⟨rfl, rfl, rfl⟩
    | _ => cases hold
  | accept old n hold | reject old hold =>
    cases old with
    | arriving | waiting => exact .inl (by simp [Phase.ahead])
    | _ => cases hold
  | start n possible => exact .inl (by cases possible <;> simp [Phase.ahead])
  | finish n => cases ha
  | release n | giveUp n => exact .inl (by simp [Phase.ahead])

theorem Step.joins_of_task (h : Step p a q) (ha : a.task? = some i) : q.joins = p.joins := by
  cases h with
  | submit | tune | close | join | pass | rest => cases ha
  | _ => rfl

theorem Step.woken_lt (h : Step p (.enter i) q) (hphase : p.phase? i = some .waiting) :
    q.woken.length < p.woken.length := by
  cases h with
  | reject i old h | accept i old h | park i old h =>
    cases h with
    | arriving h => simp [h] at hphase
    | woken h hwoken => exact length_erase_lt hwoken

/-- What happens by itself does a piece of work, or it is a look of somebody who was woken. -/
theorem Step.progress (h : Step p a q) (ha : a.spontaneous = true) :
    q.work < p.work ∨ (q.work = p.work ∧ q.woken.length < p.woken.length) := by
  -- A task or a joiner comes closer to its end, or it looks in vain and waits again.
  cases htask : a.task? with
  | some i =>
    obtain ⟨old, new, hturn, hmoved⟩ := h.turn htask
    have hwork := hmoved.work (h.joins_of_task htask)
    rcases hturn.ahead ha with hless | ⟨rfl, rfl, rfl⟩
    · exact .inl (by omega)
    · exact .inr ⟨by omega, h.woken_lt hmoved.before⟩
  | none =>
    cases h with
    | pass j old h hidle =>
      have hwork := work_setJoin h .returned
      cases h with
      | arriving h => exact .inl (Nat.lt_of_succ_le (Nat.le_of_eq hwork))
      | woken h hwoken => exact .inr ⟨hwork, length_erase_lt hwoken⟩
    | rest j old h hbusy =>
      have hwork := work_setJoin h .waiting
      cases h with
      | arriving h => exact .inl (Nat.lt_of_succ_le (Nat.le_of_eq hwork))
      | woken h hwoken => exact .inr ⟨hwork, length_erase_lt hwoken⟩
    | submit | tune | close | join => cases ha
    | _ => cases htask

/-- All who can wait at a pool. -/
def waiters (p : Pool) : List Waiter :=
  (List.range p.tasks.length).map .submitter ++ (List.range p.joins.length).map .joiner

theorem Waits.mem_waiters (h : p.Waits w) : w ∈ p.waiters := by
  rw [waiters, List.mem_append, List.mem_map, List.mem_map]
  cases w with
  | submitter i =>
    obtain ⟨t, ht, -⟩ := phase?_eq_some.1 h
    exact .inl ⟨i, List.mem_range.2 (List.getElem?_eq_some_iff.1 ht).1, rfl⟩
  | joiner j => exact .inr ⟨j, List.mem_range.2 (List.getElem?_eq_some_iff.1 h).1, rfl⟩

theorem Waited.woken_le (hp : Waited p) : p.woken.length ≤ p.seats := by
  have hnodup : p.woken.Nodup := hp.queued.nodup.of_append_right
  have hsubset : p.woken ⊆ p.waiters := fun w hw => Waits.mem_waiters ((hp.queued.known w).2 (.inr hw))
  have hle := hnodup.length_le_of_subset hsubset
  simpa [waiters, Pool.seats] using hle

theorem Step.rank_lt (h : Step p a q) (ha : a.spontaneous = true) (hq : Waited q) : q.rank < p.rank := by
  have hseats := h.seats ha
  have hwoken := hq.woken_le
  rw [rank, rank, hseats]
  rcases h.progress ha with hless | ⟨hsame, hless⟩
  · -- One piece of work less outweighs all who may have been woken for it.
    have hmul : (q.work + 1) * (p.seats + 1) ≤ p.work * (p.seats + 1) := Nat.mul_le_mul_right _ hless
    rw [Nat.add_mul] at hmul
    omega
  · rw [hsame]
    omega

theorem run_rank (hp : Waited p) (hcounted : p.Counted) (h : p.run? as = some q)
    (has : ∀ a ∈ as, a.spontaneous = true) : as.length + q.rank ≤ p.rank := by
  revert has
  refine run_induction (P := fun as q => (∀ a ∈ as, a.spontaneous = true) → as.length + q.rank ≤ p.rank)
    (by simp) ?_ h
  intro as a q r hrun ih hstep has
  have hbefore := ih fun b hb => has b (by simp [hb])
  have hq := run_waited hrun hp hcounted
  have hless := hstep.rank_lt (has a (by simp)) (hstep.waited hq (run_counted hrun hcounted))
  rw [List.length_append, List.length_singleton]
  omega

theorem work_le (p : Pool) : p.work ≤ 4 * p.seats := by
  have htasks := sum_map_le Phase.ahead_le p.phases
  have hjoins := sum_map_le JoinPhase.ahead_le p.joins
  rw [phases, List.length_map, ← phases] at htasks
  rw [work, Pool.seats]
  omega

theorem rank_le_settleFuel (hp : Waited p) : p.rank ≤ p.settleFuel := by
  have hwork : p.work * (p.seats + 1) ≤ 4 * (p.seats + 2) * (p.seats + 2) := by
    have := p.work_le
    exact Nat.mul_le_mul (by omega) (by omega)
  have hwoken : p.woken.length ≤ 4 * (p.seats + 2) * (p.seats + 2) := by
    have hle : p.woken.length ≤ 4 * (p.seats + 2) * 1 := by
      have := hp.woken_le
      omega
    exact Nat.le_trans hle (Nat.mul_le_mul_left _ (by omega))
  have hfuel : p.settleFuel = 8 * (p.seats + 2) * (p.seats + 2) := rfl
  have hdouble : 8 * (p.seats + 2) = 4 * (p.seats + 2) + 4 * (p.seats + 2) := by omega
  rw [rank, hfuel, hdouble, Nat.add_mul]
  exact Nat.add_le_add hwork hwoken

/-! ## The scheduler -/

theorem Waited.next?_step (hp : Waited p) (h : p.next? threads = some a) :
    a.spontaneous = true ∧ ∃ q, Step p a q := by
  unfold next? at h
  split at h
  next b hb =>
    obtain rfl := Option.some.inj h
    obtain ⟨⟨t, i⟩, hmem, hact⟩ := List.exists_of_findSome?_eq_some hb
    have ht : p.phase? i = some t.phase := phase?_eq_some.2 ⟨t, List.mem_zipIdx_iff_getElem?.1 hmem, rfl⟩
    cases hphase : t.phase <;> rw [hphase] at ht <;> simp only [hphase, taskAction?] at hact <;>
      cases hact
    · exact ⟨rfl, _, step_look (.arriving ht)⟩
    · exact ⟨rfl, _, .start i _ threads ht⟩
    · exact ⟨rfl, _, .giveUp i _ ht⟩
    · exact ⟨rfl, _, .release i _ ht⟩
  next hb =>
    split at h
    next b hb =>
      obtain rfl := Option.some.inj h
      obtain ⟨⟨phase, j⟩, hmem, hact⟩ := List.exists_of_findSome?_eq_some hb
      have hj : p.joins[j]? = some phase := List.mem_zipIdx_iff_getElem?.1 hmem
      cases phase <;> simp only [joinAction?] at hact <;> cases hact
      exact ⟨rfl, _, step_lookJoin (.arriving hj)⟩
    next =>
      obtain ⟨w, hw, rfl⟩ := Option.map_eq_some_iff.1 h
      have hwoken : w ∈ p.woken := List.mem_of_head? hw
      -- Whoever was woken still waits, so the look can happen.
      have hwaits := (hp.queued.known w).2 (.inr hwoken)
      cases w with
      | submitter i => exact ⟨rfl, _, step_look (.woken hwaits hwoken)⟩
      | joiner j => exact ⟨rfl, _, step_lookJoin (.woken hwaits hwoken)⟩

theorem next?_settled (h : p.next? threads = none) : p.Settled := by
  unfold next? at h
  split at h
  next => cases h
  next htasks =>
    split at h
    next => cases h
    next hjoins =>
      have htask {i : Nat} {phase : Phase} (hi : p.phase? i = some phase) : taskAction? threads i phase = none := by
        obtain ⟨t, ht, rfl⟩ := phase?_eq_some.1 hi
        exact List.findSome?_eq_none_iff.1 htasks (t, i) (List.mem_zipIdx_iff_getElem?.2 ht)
      have hjoin {j : Nat} {phase : JoinPhase} (hj : p.joins[j]? = some phase) : joinAction? j phase = none :=
        List.findSome?_eq_none_iff.1 hjoins (phase, j) (List.mem_zipIdx_iff_getElem?.2 hj)
      have hwoken : p.woken = [] := by simpa using h
      intro a ha
      cases hstep : p.step? a with
      | none => rfl
      | some q =>
        -- Each step that happens by itself is one that the scheduler would have found.
        cases step?_eq_some.1 hstep with
        | reject i old h | accept i old h | park i old h =>
          cases h with
          | arriving h => cases htask h
          | woken h hmem => simp [hwoken] at hmem
        | start i n possible h => cases htask h
        | release i n h => cases htask h
        | giveUp i n h => cases htask h
        | pass j old h | rest j old h =>
          cases h with
          | arriving h => cases hjoin h
          | woken h hmem => simp [hwoken] at hmem
        | _ => cases ha

theorem settled_of_rank (hp : Waited p) (hcounted : p.Counted) (hrank : p.rank = 0) : p.Settled := by
  intro a ha
  cases hstep : p.step? a with
  | none => rfl
  | some q =>
    have hstep := step?_eq_some.1 hstep
    have := hstep.rank_lt ha (hstep.waited hp hcounted)
    omega

/-- The scheduler stops where nothing is left to happen by itself. -/
theorem settleWithin_settled {fuel : Nat} (hp : Waited p) (hcounted : p.Counted) (hfuel : p.rank ≤ fuel) :
    (p.settleWithin fuel threads).1.Settled ∧
      ∃ as, p.run? as = some (p.settleWithin fuel threads).1 ∧ ∀ a ∈ as, a.spontaneous = true := by
  induction fuel generalizing p with
  | zero => exact ⟨settled_of_rank hp hcounted (Nat.le_zero.1 hfuel), [], rfl, by simp⟩
  | succ fuel ih =>
    rw [settleWithin]
    split
    next hnone => exact ⟨next?_settled hnone, [], rfl, by simp⟩
    next a ha =>
      obtain ⟨hspontaneous, q, hstep⟩ := hp.next?_step ha
      have hq := hstep.waited hp hcounted
      have hrank := hstep.rank_lt hspontaneous hq
      have hone : p.run? [a] = some q := by rw [run?_one, hstep.step?]
      obtain ⟨hsettled, as, hrun, has⟩ := ih hq (run_counted hone hcounted) (by omega)
      rw [hstep.step?]
      refine ⟨hsettled, a :: as, (run?_cons hstep.step? as).trans hrun, ?_⟩
      exact List.forall_mem_cons.2 ⟨hspontaneous, has⟩

theorem settle_settled (hp : Waited p) (hcounted : p.Counted) (threads : Bool) :
    (p.settle threads).1.Settled ∧
      ∃ as, p.run? as = some (p.settle threads).1 ∧ ∀ a ∈ as, a.spontaneous = true :=
  settleWithin_settled hp hcounted (rank_le_settleFuel hp)

end Pool

end Thumbnailer
