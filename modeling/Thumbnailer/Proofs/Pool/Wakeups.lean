import Thumbnailer.Proofs.Pool.Settling

/-!
# No wake-up is lost

`no_wakeup_lost` says who may wait in the states of a run, and what becomes of those who wait when the capacity is
raised or the pool is closed.
-/

namespace Thumbnailer.Pool

variable {p q : Pool} {a : Action} {as : List Action} {i j n : Nat}

/-! ## Blocked submitters -/

/-- How many submitters have not come past the pool yet. -/
def blocked (p : Pool) : Nat := p.phases.countP Phase.blocked

theorem Moved.blocked {old new : Phase} (h : Moved p q i old new) :
    q.blocked + old.blocked.toNat = p.blocked + new.blocked.toNat := by
  rw [Pool.blocked, Pool.blocked, h.phases]
  exact countP_set_add ((getElem?_phases p i).trans h.before) new

/-- The action brings in a task, or it changes what the pool admits. -/
def Action.steers : Action → Bool
  | .submit _ | .tune _ | .close => true
  | _ => false

theorem Step.blocked (h : Step p a q) (hopen : p.closed = false) (ha : a.steers = false) :
    q.blocked + (p.admission? a).toList.length = p.blocked := by
  cases htask : a.task? with
  | some i =>
    obtain ⟨old, new, hturn, hmoved⟩ := h.turn htask
    have hblocked := hmoved.blocked
    rw [h.admission?_of_turn hturn hmoved]
    cases hturn with
    | wait old hold | accept old n hold =>
      rw [hold] at hblocked
      simpa [Phase.blocked, Phase.admission?] using hblocked
    | reject old hold =>
      -- Only a closed pool rejects anybody.
      have hafter := hmoved.after
      cases h with
      | reject j old h hclosed => simp [hopen] at hclosed
      | accept j old h =>
        cases (phase?_setPhase_self (p := p.unwake _) h.phase? (.admitted (p.spawned + 1))).symm.trans hafter
      | park j old h => cases (phase?_setPhase_self (p := p.unwake _) h.phase? .waiting).symm.trans hafter
    | start n possible => cases possible <;> simpa [Phase.blocked, Phase.admission?] using hblocked
    | finish n | release n | giveUp n => simpa [Phase.blocked, Phase.admission?] using hblocked
  | none =>
    cases h with
    | join | pass j old h hidle | rest j old h hbusy => rfl
    | submit | tune | close => cases ha
    | _ => cases htask

/-- A pool that nobody steers stays open with its capacity, and is not overfilled once it admits somebody. -/
structure Fills (p : Pool) (as : List Action) (q : Pool) : Prop where
  closed : q.closed = false
  capacity : q.capacity = p.capacity
  blocked : q.blocked + (p.admissions as).length = p.blocked
  filled : p.admissions as = [] ∨ q.running ≤ q.capacity

theorem run_fills (h : p.run? as = some q) (hopen : p.closed = false) (has : ∀ a ∈ as, a.steers = false) :
    Fills p as q := by
  revert has
  refine run_induction (P := fun as q => (∀ a ∈ as, a.steers = false) → Fills p as q)
    (fun _ => ⟨hopen, rfl, rfl, .inl rfl⟩) ?_ h
  intro as a q r hrun ih hstep has
  obtain ⟨hclosed, hcapacity, hblocked, hfilled⟩ := ih fun b hb => has b (by simp [hb])
  have ha : a.steers = false := has a (by simp)
  have hsame : r.capacity = q.capacity := by
    rw [hstep.capacity]
    cases a <;> first | rfl | cases ha
  have hstill : r.closed = false := by
    rw [hstep.closed, hclosed]
    cases a <;> first | rfl | cases ha
  have hone := hstep.blocked hclosed ha
  refine ⟨hstill, hsame.trans hcapacity, ?_, ?_⟩
  · rw [admissions_concat hrun, List.length_append]
    omega
  · rw [admissions_concat hrun, hsame]
    cases hstep.booking with
    | admission i ha hadmission hopen hroom hrunning => exact .inr (by omega)
    | none hadmission hspawned hrunning =>
      rw [hadmission, Option.toList_none, List.append_nil]
      exact hfilled.imp_right fun hle => by omega

/-! ## Settled pools -/

theorem Settled.waiting (h : p.Settled) {phase : Phase} (hphase : p.phase? i = some phase)
    (hblocked : phase.blocked = true) : phase = .waiting := by
  cases phase with
  | arriving => cases (step_look (.arriving hphase)).step?.symm.trans (h (.enter i) rfl)
  | waiting => rfl
  | _ => cases hblocked

theorem Settled.join (h : p.Settled) {phase : JoinPhase} (hj : p.joins[j]? = some phase) (hne : phase ≠ .returned) :
    phase = .waiting := by
  cases phase with
  | arriving => cases (step_lookJoin (.arriving hj)).step?.symm.trans (h (.look j) rfl)
  | waiting => rfl
  | returned => exact absurd rfl hne

theorem Settled.runs (h : p.Settled) {phase : Phase} (hphase : p.phase? i = some phase)
    (hslot : phase.holdsSlot = true) : ∃ n, phase = .running n := by
  cases phase with
  | admitted n => cases (Step.start i n true hphase).step?.symm.trans (h (.start i true) rfl)
  | stuck n => cases (Step.giveUp i n hphase).step?.symm.trans (h (.release i) rfl)
  | running n => exact ⟨n, rfl⟩
  | ended n => cases (Step.release i n hphase).step?.symm.trans (h (.release i) rfl)
  | _ => cases hslot

theorem Settled.not_woken (h : p.Settled) {w : Waiter} (hw : p.Waits w) : w ∉ p.woken := by
  intro hwoken
  cases w with
  | submitter i => cases (step_look (.woken hw hwoken)).step?.symm.trans (h (.enter i) rfl)
  | joiner j => cases (step_lookJoin (.woken hw hwoken)).step?.symm.trans (h (.look j) rfl)

theorem blocked_eq_zero (h : ∀ i phase, p.phase? i = some phase → phase.blocked = false) : p.blocked = 0 := by
  rw [blocked, List.countP_eq_zero]
  intro phase hphase
  obtain ⟨i, hi⟩ := List.getElem?_of_mem hphase
  rw [getElem?_phases] at hi
  simp [h i phase hi]

theorem Settled.full (h : p.Settled) (hp : Waited p) (hphase : p.phase? i = some .waiting) :
    p.closed = false ∧ p.capacity ≤ p.running :=
  hp.full i (hp.parked (w := .submitter i) hphase (h.not_woken (w := .submitter i) hphase))

theorem Settled.blocked (h : p.Settled) (hp : Waited p) :
    p.blocked = 0 ∨ (p.closed = false ∧ p.capacity ≤ p.running) := by
  by_cases hwaits : ∃ i, p.phase? i = some .waiting
  · obtain ⟨i, hi⟩ := hwaits
    exact .inr (h.full hp hi)
  · refine .inl (blocked_eq_zero fun i phase hphase => Bool.eq_false_iff.2 fun hblocked => ?_)
    obtain rfl := h.waiting hphase hblocked
    exact hwaits ⟨i, hphase⟩

theorem Settled.running (h : p.Settled) (hcounted : p.Counted) (hrunning : 0 < p.running) :
    ∃ i n, p.phase? i = some (.running n) := by
  have hslots : 0 < p.slots := by
    unfold Counted at hcounted
    omega
  obtain ⟨t, ht, hslot⟩ := List.countP_pos_iff.1 hslots
  obtain ⟨i, hi⟩ := List.getElem?_of_mem ht
  have hphase : p.phase? i = some t.phase := phase?_eq_some.2 ⟨t, hi, rfl⟩
  obtain ⟨n, hn⟩ := h.runs hphase hslot
  exact ⟨i, n, hn ▸ hphase⟩

/-! ## Nobody is forgotten -/

/-- Whoever waits at a pool has a reason to, and does not wait longer than that. -/
structure Attended (p : Pool) : Prop where
  /-- A submitter who waits and was not woken waits for room at an open pool, -/
  submitter : ∀ i, p.phase? i = some .waiting → .submitter i ∉ p.woken → p.closed = false ∧ p.capacity ≤ p.running
  /-- and a joiner for running tasks. -/
  joiner : ∀ j, p.joins[j]? = some .waiting → .joiner j ∉ p.woken → 0 < p.running
  /-- Only so much can happen by itself, and then the pool has settled. -/
  bounded : ∀ as q, p.run? as = some q → (∀ a ∈ as, a.spontaneous = true) → as.length ≤ p.settleFuel
  settles : ∀ threads, (p.settle threads).1.Settled ∧
    ∃ as, p.run? as = some (p.settle threads).1 ∧ ∀ a ∈ as, a.spontaneous = true
  /-- In a settled pool somebody is blocked only if the pool is open and full, -/
  settledSubmit : p.Settled → ∀ i phase, p.phase? i = some phase → phase.blocked = true →
    phase = .waiting ∧ p.closed = false ∧ p.capacity ≤ p.running
  /-- and somebody joins only if a task is running. -/
  settledJoin : p.Settled → ∀ (j : Nat) (phase : JoinPhase), p.joins[j]? = some phase → phase ≠ .returned →
    phase = .waiting ∧ ∃ i n, p.phase? i = some (.running n)
  /-- When the capacity has been changed and all has settled again, as many of the blocked submitters have been
  admitted as there were free slots, those included that were given back meanwhile. -/
  tuned : p.closed = false → ∀ n later q, p.run? (.tune n :: later) = some q →
    (∀ a ∈ later, a.steers = false) → q.Settled → (p.admissions (.tune n :: later)).length =
      min p.blocked (capacityOf n - p.running + later.countP Action.releases).toNat
  /-- When the pool has been closed and all has settled again, nobody is blocked. -/
  closed : ∀ later q, p.run? (.close :: later) = some q → q.Settled → q.blocked = 0

/-- A settled pool has admitted as many of its submitters as it had room for. -/
theorem run_fills_settled (h : p.run? as = some q) (hopen : p.closed = false) (has : ∀ a ∈ as, a.steers = false)
    (hsettled : q.Settled) (hq : Waited q) : (p.admissions as).length =
      min p.blocked (p.capacity - p.running + as.countP Action.releases).toNat := by
  obtain ⟨-, hcapacity, hblocked, hfilled⟩ := run_fills h hopen has
  have hrunning := run_running h
  -- Either all were admitted, or the pool is full now: then it has not grown beyond its capacity, unless it was
  -- overfilled from the start and has admitted nobody.
  rcases hsettled.blocked hq with hnone | ⟨-, hfull⟩
  · rcases hfilled with hnil | hle
    · rw [hnil] at hblocked ⊢
      simp only [List.length_nil] at hblocked ⊢
      omega
    · omega
  · rcases hfilled with hnil | hle
    · rw [hnil] at hrunning ⊢
      simp only [List.length_nil] at hrunning ⊢
      omega
    · omega

theorem no_wakeup_lost {capacity : Int} {name : String} {as : List Action} {p : Pool}
    (h : (new capacity name).run? as = some p) : Attended p := by
  have hcounted : p.Counted := run_counted h (new_counted capacity name)
  have hp : Waited p := run_waited h (new_waited capacity name) (new_counted capacity name)
  constructor
  · intro i hi hwoken
    exact hp.full i (hp.parked (w := .submitter i) hi hwoken)
  · intro j hj hwoken
    exact hp.busy j (hp.parked (w := .joiner j) hj hwoken)
  · intro as q hrun has
    have hrank := run_rank hp hcounted hrun has
    have hfuel := rank_le_settleFuel hp
    omega
  · exact settle_settled hp hcounted
  · intro hsettled i phase hphase hblocked
    obtain rfl := hsettled.waiting hphase hblocked
    exact ⟨rfl, hsettled.full hp hphase⟩
  · intro hsettled j phase hj hne
    obtain rfl := hsettled.join hj hne
    have hparked := hp.parked (w := .joiner j) hj (hsettled.not_woken (w := .joiner j) hj)
    exact ⟨rfl, hsettled.running hcounted (hp.busy j hparked)⟩
  · intro hopen n later q hrun hlater hsettled
    have hq := run_waited hrun hp hcounted
    have hfills := run_fills_settled (p := { p.notifyAll with capacity := capacityOf n }) hrun hopen hlater hsettled hq
    exact hfills
  · intro later q hrun hsettled
    have hq := run_waited hrun hp hcounted
    have hclosed : q.closed = true := (run_closed (p := { p.notifyAll with closed := true }) hrun rfl).1
    refine (hsettled.blocked hq).resolve_right ?_
    simp [hclosed]

/-- One task runs, two submitters wait for its slot and somebody waits for its end. A failed start has woken all of
them once. -/
def crowdedActions : List Action :=
  [.submit none, .enter 0, .start 0 true, .tune 2, .submit none, .enter 1, .submit none, .enter 2, .join, .look 0,
    .submit none, .enter 3, .tune 1, .start 1 false, .release 1, .enter 3, .look 0, .enter 2]

theorem no_wakeup_lost_crowded : ∃ p, (new 1 "pool").run? crowdedActions = some p ∧
    p.parked = [.submitter 3, .joiner 0, .submitter 2] ∧ p.woken = [] ∧ Attended p := by
  have hseen : ((new 1 "pool").run? crowdedActions).map (fun p => (p.parked, p.woken)) =
      some ([.submitter 3, .joiner 0, .submitter 2], []) := by rfl
  obtain ⟨p, hp, hqueues⟩ := Option.map_eq_some_iff.1 hseen
  obtain ⟨hparked, hwoken⟩ := Prod.mk.inj hqueues
  exact ⟨p, hp, hparked, hwoken, no_wakeup_lost hp⟩

end Thumbnailer.Pool
