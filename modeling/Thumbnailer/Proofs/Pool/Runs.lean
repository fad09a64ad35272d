import Thumbnailer.Proofs.Pool.Slots
import Thumbnailer.Proofs.Runs

/-!
# Runs of a pool

A run is any sequence of actions that can happen one after the other. `run_past` reads off the phase of a task what
the task has done in a run, and the other lemmas say what the fields of a pool tell about the run behind it.
-/

namespace Thumbnailer

namespace Pool

variable {p q : Pool} {a : Action} {as bs : List Action} {i : Nat}

/-- The pool after some actions, if they can happen one after the other. -/
def run? (p : Pool) (as : List Action) : Option Pool := runFrom? Pool.step? p as

theorem run?_append (p : Pool) (as bs : List Action) :
    p.run? (as ++ bs) = (p.run? as).bind fun q => q.run? bs := runFrom?_append Pool.step? p as bs

theorem run?_cons (h : p.step? a = some q) (as : List Action) : p.run? (a :: as) = q.run? as :=
  runFrom?_cons Pool.step? h as

theorem run?_one (p : Pool) (a : Action) : p.run? [a] = p.step? a := runFrom?_one Pool.step? p a

theorem run_induction {P : List Action → Pool → Prop} (hnil : P [] p)
    (hstep : ∀ as a q r, p.run? as = some q → P as q → Step q a r → P (as ++ [a]) r)
    (h : p.run? as = some q) : P as q :=
  runFrom?_induction Pool.step? hnil (fun as a q r hrun hq hlast => hstep as a q r hrun hq (step?_eq_some.1 hlast)) h

/-! ## Admissions -/

/-- The admission that has brought a task to this phase. -/
def Phase.admission? (i : Nat) : Phase → Option (Nat × Nat)
  | .admitted n => some (i, n)
  | _ => none

/-- The task that an action admits, and its worker. -/
def admission? (p : Pool) (a : Action) : Option (Nat × Nat) :=
  match a with
  | .enter i => ((p.step? a).bind fun q => q.phase? i).bind (Phase.admission? i)
  | _ => none

/-- The tasks that a run admits, one after the other, each with its worker. -/
def admissions (p : Pool) : List Action → List (Nat × Nat)
  | [] => []
  | a :: rest => (p.admission? a).toList ++ ((p.step? a).map fun q => q.admissions rest).getD []

theorem admissions_append (h : p.run? as = some q) :
    p.admissions (as ++ bs) = p.admissions as ++ q.admissions bs := by
  induction as generalizing p with
  | nil =>
    obtain rfl := Option.some.inj h
    rfl
  | cons a rest ih =>
    obtain ⟨r, hr, hq⟩ := Option.bind_eq_some_iff.1 h
    rw [List.cons_append, admissions, admissions, hr]
    simp [ih hq]

theorem admissions_one (p : Pool) (a : Action) : p.admissions [a] = (p.admission? a).toList := by
  rw [admissions]
  cases p.step? a <;> simp [admissions]

theorem admissions_concat (h : p.run? as = some q) :
    p.admissions (as ++ [a]) = p.admissions as ++ (q.admission? a).toList := by
  rw [admissions_append h, admissions_one]

theorem admission?_enter (h : p.step? (.enter i) = some q) {phase : Phase} (hphase : q.phase? i = some phase) :
    p.admission? (.enter i) = phase.admission? i := by
  simp [admission?, h, hphase]

def Action.releases : Action → Bool
  | .release _ => true
  | _ => false

/-- What an action means for the slots: it admits a task to a free slot of an open pool, or it admits none. -/
inductive Booking (p : Pool) (a : Action) (q : Pool) : Prop
  | admission (i : Nat) (ha : a = .enter i) (hadmission : p.admission? a = some (i, p.spawned + 1))
      (hopen : p.closed = false) (hroom : p.running < p.capacity) (hrunning : q.running = p.running + 1)
      (hspawned : q.spawned = p.spawned + 1) (hphase : q.phase? i = some (.admitted (p.spawned + 1)))
  | none (hadmission : p.admission? a = none) (hspawned : q.spawned = p.spawned)
      (hrunning : q.running = p.running - a.releases.toNat)

theorem Step.booking (h : Step p a q) : Booking p a q := by
  have hstep := h.step?
  cases h with
  | reject i old h hclosed =>
    have hphase := phase?_setPhase_self (p := p.unwake (.submitter i)) h.phase? (.refused .closed)
    exact .none (admission?_enter hstep hphase) rfl (Int.sub_zero _).symm
  | accept i old h hopen hroom =>
    have hphase := phase?_setPhase_self (p := p.unwake (.submitter i)) h.phase? (.admitted (p.spawned + 1))
    exact .admission i rfl (admission?_enter hstep hphase) hopen hroom rfl rfl hphase
  | park i old h hopen hfull =>
    have hphase := phase?_setPhase_self (p := p.unwake (.submitter i)) h.phase? .waiting
    exact .none (admission?_enter hstep hphase) rfl (Int.sub_zero _).symm
  | release i n h => exact .none rfl rfl rfl
  | giveUp i n h => exact .none rfl rfl rfl
  | _ => exact .none rfl rfl (Int.sub_zero _).symm

theorem Step.enter_of_admission? (h : Step p a q) {n : Nat} (hadmission : p.admission? a = some (i, n)) :
    a = .enter i ∧ n = p.spawned + 1 := by
  cases h.booking with
  | admission j ha hj =>
    obtain ⟨rfl, rfl⟩ := Prod.mk.inj (Option.some.inj (hj.symm.trans hadmission))
    exact ⟨ha, rfl⟩
  | none hnone => simp [hnone] at hadmission

theorem run_running (h : p.run? as = some q) :
    q.running = p.running + (p.admissions as).length - as.countP Action.releases := by
  refine run_induction (P := fun as q =>
    q.running = p.running + (p.admissions as).length - as.countP Action.releases) (by simp [admissions]) ?_ h
  intro as a q r hrun ih hstep
  rw [admissions_concat hrun, List.length_append, List.countP_append, List.countP_singleton]
  cases hstep.booking with
  | admission i ha hadmission hopen hroom hrunning =>
    rw [hadmission, hrunning, ih, ha]
    simp [Action.releases]
    omega
  | none hadmission hspawned hrunning =>
    rw [hadmission, hrunning, ih]
    cases a.releases
    · simp
    · simp
      omega

theorem run_workers (h : p.run? as = some q) : q.spawned = p.spawned + (p.admissions as).length ∧
    (p.admissions as).map Prod.snd = List.range' (p.spawned + 1) (p.admissions as).length := by
  refine run_induction (P := fun as q => q.spawned = p.spawned + (p.admissions as).length ∧
    (p.admissions as).map Prod.snd = List.range' (p.spawned + 1) (p.admissions as).length)
    ⟨rfl, rfl⟩ ?_ h
  rintro as a q r hrun ⟨hspawned, hworkers⟩ hstep
  rw [admissions_concat hrun]
  cases hstep.booking with
  | admission i ha hadmission hopen hroom hrunning hgrown =>
    rw [hadmission, Option.toList_some, List.length_append, List.length_singleton, List.map_append, hworkers,
      List.range'_concat]
    refine ⟨by omega, ?_⟩
    simp [hspawned]
    omega
  | none hadmission hgrown => simp [hadmission, hgrown, hspawned, hworkers]

/-! ## Capacity, closing and the name -/

def Action.tuned? : Action → Option Nat
  | .tune n => some (capacityOf n)
  | _ => none

def tunings (as : List Action) : List Nat := as.filterMap Action.tuned?

theorem Step.capacity (h : Step p a q) : q.capacity = a.tuned?.getD p.capacity := by
  cases h <;> rfl

theorem Step.name (h : Step p a q) : q.name = p.name := by
  cases h <;> rfl

theorem Step.closed (h : Step p a q) : q.closed = (p.closed || a = .close) := by
  cases h <;> simp [setPhase, unwake, giveBack, notifyAll]

theorem run_capacity (h : p.run? as = some q) : q.capacity = (tunings as).getLastD p.capacity := by
  refine run_induction (P := fun as q => q.capacity = (tunings as).getLastD p.capacity) rfl ?_ h
  intro as a q r hrun ih hstep
  rw [hstep.capacity, ih]
  cases ha : a.tuned? <;> simp [tunings, ha]

theorem run_name (h : p.run? as = some q) : q.name = p.name := by
  refine run_induction (P := fun _ q => q.name = p.name) rfl ?_ h
  intro as a q r hrun ih hstep
  rw [hstep.name, ih]

theorem run_closed (h : p.run? as = some q) (hclosed : p.closed = true) :
    q.closed = true ∧ p.admissions as = [] := by
  refine run_induction (P := fun as q => q.closed = true ∧ p.admissions as = []) ⟨hclosed, rfl⟩ ?_ h
  rintro as a q r hrun ⟨hclosed, hnone⟩ hstep
  refine ⟨by rw [hstep.closed, hclosed, Bool.true_or], ?_⟩
  rw [admissions_concat hrun, hnone]
  cases hstep.booking with
  | admission i ha hadmission hopen => simp [hopen] at hclosed
  | none hadmission => simp [hadmission]

/-! ## What a task has done -/

def Action.enters : Action → Bool
  | .enter _ => true
  | _ => false

/-- What a task does in a run, once its submitter has come past the pool. -/
def deeds (i : Nat) (as : List Action) : List Action :=
  as.filter fun a => a.task? = some i && !a.enters

def workersOf (i : Nat) (admissions : List (Nat × Nat)) : List Nat :=
  (admissions.filter fun t => t.1 = i).map Prod.snd

/-- What a task has done when it has come to a phase. -/
def Phase.deeds (i : Nat) : Phase → List Action
  | .arriving | .waiting | .admitted _ | .refused .closed => []
  | .stuck _ => [.start i false]
  | .refused .noThread => [.start i false, .release i]
  | .running _ => [.start i true]
  | .ended _ => [.start i true, .finish i]
  | .done _ => [.start i true, .finish i, .release i]

/-- The workers that a task can have been given when it has come to a phase. -/
def Phase.Employs : Phase → List Nat → Prop
  | .arriving, ns | .waiting, ns | .refused .closed, ns => ns = []
  | .refused .noThread, ns => ∃ n, ns = [n]
  | .admitted n, ns | .stuck n, ns | .running n, ns | .ended n, ns | .done n, ns => ns = [n]

/-- How far a task has come; one that nobody has submitted yet is still to arrive. -/
def stage (p : Pool) (i : Nat) : Phase := (p.phase? i).getD .arriving

/-- What a run that has come to a pool says about a task. -/
structure Past (i : Nat) (phase : Phase) (admissions : List (Nat × Nat)) (as : List Action) : Prop where
  deeds : deeds i as = phase.deeds i
  workers : phase.Employs (workersOf i admissions)

theorem Step.stage_of_ne (h : Step p a q) (ha : a.task? ≠ some i) : q.stage i = p.stage i := by
  cases htask : a.task? with
  | some j =>
    obtain ⟨old, new, -, hmoved⟩ := h.turn htask
    have hne : i ≠ j := by
      rintro rfl
      exact ha htask
    rw [stage, hmoved.others i hne, stage]
  | none =>
    cases h with
    | submit error =>
      rw [stage, phase?_submit, stage]
      split
      next heq => simp [heq, phase?]
      next => rfl
    | tune | close | join | pass | rest => rfl
    | _ => cases htask

theorem Step.workersOf_of_ne (h : Step p a q) (ha : a.task? ≠ some i) :
    workersOf i (p.admission? a).toList = [] := by
  cases hadmission : p.admission? a with
  | none => rfl
  | some t =>
    obtain ⟨j, n⟩ := t
    obtain ⟨rfl, -⟩ := h.enter_of_admission? hadmission
    have hne : j ≠ i := by
      rintro rfl
      exact ha rfl
    simp [workersOf, hne]

theorem workersOf_append (i : Nat) (ts us : List (Nat × Nat)) :
    workersOf i (ts ++ us) = workersOf i ts ++ workersOf i us := by
  simp [workersOf]

theorem deeds_append (i : Nat) (as bs : List Action) : deeds i (as ++ bs) = deeds i as ++ deeds i bs :=
  List.filter_append ..

theorem employs_nil_of_blocked {phase : Phase} (h : phase.blocked = true) {ns : List Nat} :
    phase.Employs ns ↔ ns = [] := by
  cases phase <;> simp_all [Phase.blocked, Phase.Employs]

theorem deeds_nil_of_blocked {phase : Phase} (h : phase.blocked = true) : phase.deeds i = [] := by
  cases phase <;> simp_all [Phase.blocked, Phase.deeds]

theorem Turn.deeds {old new : Phase} (h : Turn i a old new) : new.deeds i = old.deeds i ++ Pool.deeds i [a] := by
  cases h with
  | wait old hold | accept old n hold | reject old hold =>
    rw [deeds_nil_of_blocked hold]
    simp [Phase.deeds, Pool.deeds, Action.enters]
  | start n possible => cases possible <;> simp [Phase.deeds, Pool.deeds, Action.task?, Action.enters]
  | finish n | release n | giveUp n => simp [Phase.deeds, Pool.deeds, Action.task?, Action.enters]

theorem Turn.employs {old new : Phase} {ns : List Nat} (h : Turn i a old new) (hold : old.Employs ns) :
    new.Employs (ns ++ workersOf i (new.admission? i).toList) := by
  cases h with
  | wait old hblocked | accept old n hblocked | reject old hblocked =>
    rw [employs_nil_of_blocked hblocked] at hold
    simp [Phase.Employs, Phase.admission?, workersOf, hold]
  | start n possible => cases possible <;> simpa [Phase.Employs, Phase.admission?, workersOf] using hold
  | finish n | release n => simpa [Phase.Employs, Phase.admission?, workersOf] using hold
  | giveUp n =>
    obtain rfl : ns = [n] := hold
    exact ⟨n, rfl⟩

theorem Step.admission?_of_turn {old new : Phase} (h : Step p a q) (hturn : Turn i a old new)
    (hmoved : Moved p q i old new) : p.admission? a = new.admission? i := by
  cases hturn with
  | wait old hold | accept old n hold | reject old hold => exact admission?_enter h.step? hmoved.after
  | start n possible => cases possible <;> rfl
  | finish n | release n | giveUp n => rfl

/-- What a run from the beginning has made of each task. -/
theorem run_past {capacity : Int} {name : String} (h : (new capacity name).run? as = some p) (i : Nat) :
    Past i (p.stage i) ((new capacity name).admissions as) as := by
  have hnew : (new capacity name).stage i = .arriving := by simp [stage, phase?, new]
  refine run_induction (P := fun as p => Past i (p.stage i) ((new capacity name).admissions as) as)
    ⟨by rw [hnew]; rfl, by rw [hnew]; rfl⟩ ?_ h
  intro as a p q hrun hpast hstep
  rw [admissions_concat hrun]
  by_cases ha : a.task? = some i
  · obtain ⟨old, new, hturn, hmoved⟩ := hstep.turn ha
    have hold : p.stage i = old := by rw [stage, hmoved.before, Option.getD_some]
    have hafter : q.stage i = new := by rw [stage, hmoved.after, Option.getD_some]
    rw [hold] at hpast
    rw [hafter, hstep.admission?_of_turn hturn hmoved]
    constructor
    · rw [deeds_append, hpast.deeds, hturn.deeds]
    · rw [workersOf_append]
      exact hturn.employs hpast.workers
  · -- Whatever others do shows neither in the phase of the task nor in its history.
    rw [hstep.stage_of_ne ha]
    constructor
    · rw [deeds_append, hpast.deeds]
      simp [deeds, ha]
    · rw [workersOf_append, hstep.workersOf_of_ne ha, List.append_nil]
      exact hpast.workers

theorem run_counted (h : p.run? as = some q) (hp : p.Counted) : q.Counted :=
  run_induction (P := fun _ q => q.Counted) hp (fun _ _ _ _ _ hq hstep => hstep.counted hq) h

/-! ## Going on -/

theorem phase?_of_stage {phase : Phase} (h : p.stage i = phase) (hne : phase ≠ .arriving) :
    p.phase? i = some phase := by
  unfold stage at h
  cases hp : p.phase? i with
  | none => exact absurd (by rw [← h, hp]; rfl) hne
  | some old => rw [← h, hp]; rfl

theorem goes_on (h : (p.stage i).holdsSlot = true) : ∃ a q, a.task? = some i ∧ Step p a q := by
  cases hs : p.stage i with
  | admitted n => exact ⟨.start i true, _, rfl, .start i n true (phase?_of_stage hs (by simp))⟩
  | stuck n => exact ⟨.release i, _, rfl, .giveUp i n (phase?_of_stage hs (by simp))⟩
  | running n => exact ⟨.finish i, _, rfl, .finish i n (phase?_of_stage hs (by simp))⟩
  | ended n => exact ⟨.release i, _, rfl, .release i n (phase?_of_stage hs (by simp))⟩
  | _ => simp [hs, Phase.holdsSlot] at h

/-- The task has held a slot and given it back. -/
def Phase.through : Phase → Bool
  | .done _ | .refused .noThread => true
  | _ => false

theorem Phase.Employs.holdsSlot_or_through {phase : Phase} {ns : List Nat} (h : phase.Employs ns)
    (hns : ns ≠ []) : phase.holdsSlot = true ∨ phase.through = true := by
  cases phase with
  | refused why => cases why <;> simp_all [Phase.Employs, Phase.through]
  | _ => simp_all [Phase.Employs, Phase.holdsSlot, Phase.through]

theorem through_of_stopped {ns : List Nat} (h : (p.stage i).Employs ns) (hns : ns ≠ [])
    (hstopped : ∀ a, a.task? = some i → p.step? a = none) : (p.stage i).through = true := by
  refine (h.holdsSlot_or_through hns).resolve_left fun hslot => ?_
  obtain ⟨a, q, ha, hstep⟩ := goes_on hslot
  rw [← step?_eq_some, hstopped a ha] at hstep
  cases hstep

theorem Phase.length_deeds_le (phase : Phase) (i : Nat) : (phase.deeds i).length ≤ 3 := by
  cases phase with
  | refused why => cases why <;> simp [Phase.deeds]
  | _ => simp [Phase.deeds]

theorem count_release_deeds (phase : Phase) (i : Nat) :
    (phase.deeds i).count (.release i) = phase.through.toNat := by
  cases phase with
  | refused why => cases why <;> simp [Phase.deeds, Phase.through]
  | _ => simp [Phase.deeds, Phase.through]

theorem Past.count_release {phase : Phase} {ts : List (Nat × Nat)} (h : Past i phase ts as) :
    as.count (.release i) = phase.through.toNat := by
  have hfilter : (Pool.deeds i as).count (.release i) = as.count (.release i) :=
    List.count_filter (by simp [Action.task?, Action.enters])
  rw [← hfilter, h.deeds, count_release_deeds]

theorem Past.length_workers {phase : Phase} {ts : List (Nat × Nat)} (h : Past i phase ts as) :
    (workersOf i ts).length = as.count (.release i) + phase.holdsSlot.toNat ∧ (workersOf i ts).length ≤ 1 := by
  rw [h.count_release]
  have hworkers := h.workers
  cases phase with
  | refused why =>
    cases why with
    | closed => simp_all [Phase.Employs, Phase.through, Phase.holdsSlot]
    | noThread =>
      obtain ⟨n, hn⟩ := hworkers
      simp [hn, Phase.through, Phase.holdsSlot]
  | _ => simp_all [Phase.Employs, Phase.through, Phase.holdsSlot]

theorem new_run?_append {capacity : Int} {name : String} (h : (new capacity name).run? as = some p)
    (hlater : p.run? bs = some q) : (new capacity name).run? (as ++ bs) = some q := by
  rw [run?_append, h]
  exact hlater

theorem run_through {capacity : Int} {name : String} (h : (new capacity name).run? as = some p)
    (hslot : (p.stage i).holdsSlot = true) (hlater : p.run? bs = some q)
    (hstopped : ∀ a, a.task? = some i → q.step? a = none) : (q.stage i).through = true := by
  have hpast := run_past (new_run?_append h hlater) i
  refine through_of_stopped hpast.workers ?_ hstopped
  -- The task has a worker by now, and keeps it in the longer run.
  have hbefore := (run_past h i).length_workers.1
  rw [admissions_append h, workersOf_append]
  intro hnil
  rw [List.append_eq_nil_iff] at hnil
  simp [hnil.1, hslot] at hbefore

end Pool

end Thumbnailer
