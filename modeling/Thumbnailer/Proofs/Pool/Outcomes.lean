import Mathlib.Data.List.Nodup
import Mathlib.Data.List.Range
import Std.Data.String.ToNat
import Thumbnailer.Proofs.Pool.Waiters

/-!
# Outcomes of submit calls

A submit call that has come past the pool ends in one way. `submit_answered` says which ways there are and what the
run shows of the task in each of them, what is left for those who come too late, and how the workers are called.
-/

namespace Thumbnailer.Pool

variable {p q : Pool} {a : Action} {as : List Action} {i n : Nat}

/-- How a submit call ends. -/
inductive Outcome where
  /-- It returns, and the task is executed on a worker. -/
  | executed (worker : Nat)
  /-- It raises an error. -/
  | raised (why : Refusal)
deriving DecidableEq, Repr

def Phase.outcome? : Phase → Option Outcome
  | .running n | .ended n | .done n => some (.executed n)
  | .refused why => some (.raised why)
  | _ => none

def outcome? (p : Pool) (i : Nat) : Option Outcome := (p.stage i).outcome?

/-- What a run shows of a task whose submit call has ended: the workers it was given and what it has done. -/
def Outcome.Shown (i : Nat) (admissions : List (Nat × Nat)) (as : List Action) : Outcome → Prop
  | .executed n => workersOf i admissions = [n] ∧ [.start i true] <+: deeds i as ∧
      deeds i as <+: [.start i true, .finish i, .release i]
  | .raised .closed => workersOf i admissions = [] ∧ deeds i as = []
  | .raised .noThread => (∃ n, workersOf i admissions = [n]) ∧ deeds i as = [.start i false, .release i]

theorem Past.shown {phase : Phase} {admissions : List (Nat × Nat)} {o : Outcome} (h : Past i phase admissions as)
    (ho : phase.outcome? = some o) : o.Shown i admissions as := by
  obtain ⟨hdeeds, hworkers⟩ := h
  cases phase with
  | running n | ended n | done n =>
    obtain rfl := Option.some.inj ho
    refine ⟨hworkers, ?_, ?_⟩ <;> rw [hdeeds] <;> simp [Phase.deeds]
  | refused why =>
    obtain rfl := Option.some.inj ho
    cases why with
    | closed => exact ⟨hworkers, hdeeds⟩
    | noThread => exact ⟨hworkers, hdeeds⟩
  | _ => cases ho

section Unique
variable {admissions : List (Nat × Nat)} {why why' : Refusal} {o o' : Outcome}

theorem Outcome.Shown.not_raised (h : Shown i admissions as (.executed n)) : ¬ Shown i admissions as (.raised why) := by
  obtain ⟨-, hstart, -⟩ := h
  intro hraised
  cases why with
  | closed => simp [hraised.2] at hstart
  | noThread => simp [hraised.2] at hstart

theorem Outcome.Shown.raised_unique (h : Shown i admissions as (.raised why))
    (h' : Shown i admissions as (.raised why')) : why = why' := by
  cases why <;> cases why'
  case closed.closed | noThread.noThread => rfl
  all_goals cases h.2.symm.trans h'.2

theorem Outcome.Shown.unique (h : o.Shown i admissions as) (h' : o'.Shown i admissions as) : o = o' := by
  cases o with
  | executed n =>
    cases o' with
    | executed m => simpa using h.1.symm.trans h'.1
    | raised why => exact absurd h' h.not_raised
  | raised why =>
    cases o' with
    | executed m => exact absurd h h'.not_raised
    | raised why' => rw [h.raised_unique h']

end Unique

/-- What a task does after its submit call has ended does not change how it has ended. -/
theorem Turn.outcome? {old new : Phase} {o : Outcome} (h : Turn i a old new) (ho : old.outcome? = some o) :
    new.outcome? = some o := by
  cases h with
  | wait old hold | accept old n hold | reject old hold =>
    cases old with
    | arriving | waiting => cases ho
    | _ => cases hold
  | start n possible => cases ho
  | finish n | release n => exact ho
  | giveUp n => cases ho

theorem Step.outcome? {o : Outcome} (h : Step p a q) (ho : p.outcome? i = some o) : q.outcome? i = some o := by
  by_cases ha : a.task? = some i
  · obtain ⟨old, new, hturn, hmoved⟩ := h.turn ha
    rw [Pool.outcome?, stage, hmoved.before] at ho
    rw [Pool.outcome?, stage, hmoved.after]
    exact hturn.outcome? ho
  · rw [Pool.outcome?, h.stage_of_ne ha]
    exact ho

theorem run_outcome? {o : Outcome} (h : p.run? as = some q) (ho : p.outcome? i = some o) :
    q.outcome? i = some o := by
  refine run_induction (P := fun _ q => q.outcome? i = some o) ho ?_ h
  intro as a q r hrun hq hstep
  exact hstep.outcome? hq

theorem outcome?_of_blocked (h : (p.stage i).blocked = true) : p.outcome? i = none := by
  rw [outcome?]
  cases hstage : p.stage i <;> simp_all [Phase.blocked, Phase.outcome?]

theorem outcome?_or_holdsSlot (h : (p.stage i).blocked = false) :
    (∃ o, p.outcome? i = some o) ∨ (p.stage i).holdsSlot = true := by
  rw [outcome?]
  cases hstage : p.stage i <;> simp_all [Phase.blocked, Phase.outcome?, Phase.holdsSlot]

/-! ## Closed pools -/

theorem Waited.mayEnter (hp : Waited p) (hclosed : p.closed = true) {phase : Phase} (h : p.phase? i = some phase)
    (hblocked : phase.blocked = true) : p.MayEnter i phase := by
  cases phase with
  | arriving => exact .arriving h
  | waiting =>
    refine .woken h (by_contra fun hwoken => ?_)
    have hopen := (hp.full i (hp.parked (w := .submitter i) h hwoken)).1
    simp [hopen] at hclosed
  | _ => cases hblocked

theorem MayEnter.rejected {old : Phase} (h : p.MayEnter i old) (hclosed : p.closed = true) :
    ∃ q, p.step? (.enter i) = some q ∧ q.outcome? i = some (.raised .closed) := by
  refine ⟨_, (Step.reject i old h hclosed).step?, ?_⟩
  have hphase := phase?_setPhase_self (p := p.unwake (.submitter i)) h.phase? (.refused .closed)
  rw [outcome?, stage, hphase]
  rfl

theorem Phase.Employs.unemployed {phase : Phase} (h : phase.Employs []) :
    phase.blocked = true ∨ phase = .refused .closed := by
  cases phase with
  | arriving | waiting => exact .inl rfl
  | refused why =>
    cases why with
    | closed => exact .inr rfl
    | noThread =>
      obtain ⟨n, hn⟩ := h
      cases hn
  | _ => cases h

/-! ## Worker names -/

theorem workerName_injective (p : Pool) : Function.Injective p.workerName := by
  intro n m h
  exact Nat.repr_injective ((String.append_right_inj _).1 h)

/-! ## Running tasks -/

theorem finish_release {error : Option String} (h : p.tasks[i]? = some ⟨error, .running n⟩) :
    (p.step? (.finish i)).bind (fun q => q.step? (.release i)) =
      some { p.notifyAll with running := p.running - 1, tasks := p.tasks.set i ⟨error, .done n⟩ } := by
  have hrunning : p.phase? i = some (.running n) := phase?_eq_some.2 ⟨_, h, rfl⟩
  have hended := phase?_setPhase_self hrunning (.ended n)
  rw [(Step.finish i n hrunning).step?, Option.bind_some, (Step.release i n hended).step?]
  have hset : (p.tasks.set i ⟨error, .ended n⟩)[i]? = some ⟨error, .ended n⟩ :=
    List.getElem?_set_self (List.getElem?_eq_some_iff.1 h).1
  simp [giveBack, setPhase, notifyAll, modify_eq_set_of_getElem? h, modify_eq_set_of_getElem? hset]

theorem deeds_of_done {phase : Phase} (h : phase.outcome? = some (.executed n)) (hslot : phase.holdsSlot = false) :
    phase.deeds i = [.start i true, .finish i, .release i] := by
  cases phase with
  | done n => rfl
  | running n | ended n => cases hslot
  | _ => cases h

/-! ## The law -/

/-- Every submit call is answered in one way. -/
structure Answered (capacity : Int) (name : String) (as : List Action) (p : Pool) : Prop where
  /-- As long as a submitter is blocked, the task has no worker and has done nothing. -/
  blocked : ∀ i, (p.stage i).blocked = true →
    p.outcome? i = none ∧ workersOf i ((new capacity name).admissions as) = [] ∧ deeds i as = []
  /-- After that the call has ended, or the task holds a slot and goes on by itself. -/
  decided : ∀ i, (p.stage i).blocked = false → (∃ o, p.outcome? i = some o) ∨
    ((p.stage i).holdsSlot = true ∧ ∃ a q, a.task? = some i ∧ p.step? a = some q)
  /-- The run shows how it has ended and nothing else, -/
  shown : ∀ i o, p.outcome? i = some o → ∀ o', Outcome.Shown i ((new capacity name).admissions as) as o' ↔ o' = o
  /-- and stays so. -/
  final : ∀ i o, p.outcome? i = some o → ∀ later q, p.run? later = some q → q.outcome? i = some o
  /-- A task that has been given a worker holds its slot and can go on, or it has given the slot back once. -/
  slot : ∀ i, workersOf i ((new capacity name).admissions as) ≠ [] →
    ((p.stage i).holdsSlot = true ∧ as.count (.release i) = 0 ∧ ∃ a q, a.task? = some i ∧ p.step? a = some q) ∨
    ((p.stage i).holdsSlot = false ∧ as.count (.release i) = 1)
  /-- An executed task that can do nothing more has run to its end. -/
  executed : ∀ i n, p.outcome? i = some (.executed n) → (∀ a, a.task? = some i → p.step? a = none) →
    deeds i as = [.start i true, .finish i, .release i]
  /-- A task may fail or not: when it has ended there is one slot more, and all who are parked look again. -/
  running : ∀ i n error, p.tasks[i]? = some ⟨error, .running n⟩ →
    (p.step? (.finish i)).bind (fun q => q.step? (.release i)) =
      some { p.notifyAll with running := p.running - 1, tasks := p.tasks.set i ⟨error, .done n⟩ }
  /-- A closed pool stays closed and admits nobody. -/
  closed : p.closed = true → ∀ later q, p.run? later = some q → q.closed = true ∧ p.admissions later = []
  /-- Whoever is blocked when the pool is closed, or comes later, can look at it at once and is rejected. -/
  rejected : p.closed = true → ∀ i, (p.stage i).blocked = true → ∀ later q, p.run? later = some q →
    ∀ phase, q.phase? i = some phase → q.outcome? i = some (.raised .closed) ∨
      (phase.blocked = true ∧ ∃ r, q.step? (.enter i) = some r ∧ r.outcome? i = some (.raised .closed))
  /-- Workers have the numbers of the admissions, -/
  workers : ((new capacity name).admissions as).map Prod.snd =
    List.range' 1 ((new capacity name).admissions as).length
  /-- no two of them the same name, -/
  names : p.name = name ∧ (((new capacity name).admissions as).map fun t => p.workerName t.2).Nodup
  /-- and no two tasks the same worker. -/
  own : ∀ i j n, p.outcome? i = some (.executed n) → p.outcome? j = some (.executed n) → i = j

theorem submit_answered {capacity : Int} {name : String} {as : List Action} {p : Pool}
    (h : (new capacity name).run? as = some p) : Answered capacity name as p := by
  have hpast := run_past h
  have hcounted : p.Counted := run_counted h (new_counted capacity name)
  have hp : Waited p := run_waited h (new_waited capacity name) (new_counted capacity name)
  have hworkers : ((new capacity name).admissions as).map Prod.snd =
    List.range' 1 ((new capacity name).admissions as).length := (run_workers h).2
  have hnodup : (((new capacity name).admissions as).map Prod.snd).Nodup := by
    rw [hworkers]
    exact List.nodup_range'
  have hgoes : ∀ i, (p.stage i).holdsSlot = true → ∃ a q, a.task? = some i ∧ p.step? a = some q := by
    intro i hslot
    obtain ⟨a, q, ha, hstep⟩ := goes_on hslot
    exact ⟨a, q, ha, hstep.step?⟩
  constructor
  · intro i hblocked
    exact ⟨outcome?_of_blocked hblocked, (employs_nil_of_blocked hblocked).1 (hpast i).workers,
      (hpast i).deeds.trans (deeds_nil_of_blocked hblocked)⟩
  · intro i hblocked
    exact (outcome?_or_holdsSlot hblocked).imp_right fun hslot => ⟨hslot, hgoes i hslot⟩
  · intro i o ho o'
    refine ⟨fun hshown => hshown.unique ((hpast i).shown ho), ?_⟩
    rintro rfl
    exact (hpast i).shown ho
  · intro i o ho later q hlater
    exact run_outcome? hlater ho
  · intro i hne
    have hcount := (hpast i).length_workers
    have hpos : 0 < (workersOf i ((new capacity name).admissions as)).length := List.length_pos_of_ne_nil hne
    cases hslot : (p.stage i).holdsSlot with
    | true =>
      simp only [hslot, Bool.toNat_true] at hcount
      exact .inl ⟨rfl, by omega, hgoes i hslot⟩
    | false =>
      simp only [hslot, Bool.toNat_false] at hcount
      exact .inr ⟨rfl, by omega⟩
  · intro i n ho hstopped
    rw [(hpast i).deeds]
    refine deeds_of_done ho (Bool.eq_false_iff.2 fun hslot => ?_)
    obtain ⟨a, q, ha, hstep⟩ := hgoes i hslot
    simp [hstopped a ha] at hstep
  · intro i n error hi
    exact finish_release hi
  · intro hclosed later q hlater
    exact run_closed hlater hclosed
  · intro hclosed i hblocked later q hlater phase hphase
    obtain ⟨hstill, hnone⟩ := run_closed hlater hclosed
    have hstage : q.stage i = phase := by rw [stage, hphase, Option.getD_some]
    -- The task had no worker when the pool was closed, and nobody is given one afterwards.
    have hemploys := (run_past (new_run?_append h hlater) i).workers
    rw [admissions_append h, hnone, List.append_nil, (employs_nil_of_blocked hblocked).1 (hpast i).workers,
      hstage] at hemploys
    rcases hemploys.unemployed with hblocked | rfl
    · have hq := run_waited hlater hp hcounted
      exact .inr ⟨hblocked, (hq.mayEnter hstill hphase hblocked).rejected hstill⟩
    · exact .inl (by rw [outcome?, hstage]; rfl)
  · exact hworkers
  · exact ⟨run_name h, by simpa [Function.comp_def] using hnodup.map p.workerName_injective⟩
  · intro i j n hi hj
    have hmem : ∀ k, p.outcome? k = some (.executed n) → (k, n) ∈ (new capacity name).admissions as := by
      intro k hk
      have hworker : n ∈ workersOf k ((new capacity name).admissions as) := by
        rw [((hpast k).shown hk).1]
        exact List.mem_singleton_self n
      simpa [workersOf] using hworker
    exact congrArg Prod.fst (List.inj_on_of_nodup_map hnodup (hmem i hi) (hmem j hj) rfl)

/-- Of four tasks one cannot be started, one fails, and two are rejected: one that waits when the pool is closed, and
one that comes later. -/
def mixedActions : List Action :=
  [.submit none, .enter 0, .submit (some "boom"), .enter 1, .submit none, .enter 2, .start 0 false, .release 0,
    .enter 1, .enter 2, .start 1 true, .close, .submit none, .enter 3, .enter 2, .finish 1, .release 1]

theorem submit_answered_mixed : ∃ p, (new 1 "pool").run? mixedActions = some p ∧
    (List.range 4).map p.outcome? =
      [some (.raised .noThread), some (.executed 2), some (.raised .closed), some (.raised .closed)] ∧
    Answered 1 "pool" mixedActions p := by
  have hseen : ((new 1 "pool").run? mixedActions).map (fun p => (List.range 4).map p.outcome?) =
      some [some (.raised .noThread), some (.executed 2), some (.raised .closed), some (.raised .closed)] := by rfl
  obtain ⟨p, hp, houtcomes⟩ := Option.map_eq_some_iff.1 hseen
  exact ⟨p, hp, houtcomes, submit_answered hp⟩

end Thumbnailer.Pool
