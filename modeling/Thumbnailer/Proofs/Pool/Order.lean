import Thumbnailer.Proofs.Pool.Scheduled

/-!
# First come, first served

Submitters wait in the order in which they came. `served_in_order` says of every schedule that nobody is admitted
while somebody who came before is still blocked.
-/

namespace Thumbnailer.Pool

variable {p q : Pool} {a : Action} {as : List Action} {i j n : Nat}

/-! ## The order of those who wait -/

def Waiter.task? : Waiter → Option Nat
  | .submitter i => some i
  | .joiner _ => none

def submitters (ws : List Waiter) : List Nat := ws.filterMap Waiter.task?

theorem submitters_append (vs ws : List Waiter) : submitters (vs ++ ws) = submitters vs ++ submitters ws :=
  List.filterMap_append

theorem mem_submitters {ws : List Waiter} : i ∈ submitters ws ↔ .submitter i ∈ ws := by
  rw [submitters, List.mem_filterMap]
  constructor
  · rintro ⟨w, hw, hi⟩
    cases w with
    | submitter k => exact Option.some.inj hi ▸ hw
    | joiner j => cases hi
  · intro hw
    exact ⟨.submitter i, hw, rfl⟩

theorem submitters_erase_joiner (ws : List Waiter) (j : Nat) :
    submitters (ws.erase (.joiner j)) = submitters ws := by
  induction ws with
  | nil => rfl
  | cons w rest ih =>
    rw [List.erase_cons]
    split
    next heq =>
      obtain rfl : w = .joiner j := by simpa using heq
      rfl
    next => rw [submitters, submitters, List.filterMap_cons, List.filterMap_cons, ← submitters, ← submitters, ih]

/-- Of all tasks none but this one is under way. -/
def Alone (p : Pool) (i : Nat) : Prop := ∀ j phase, j ≠ i → p.phase? j = some phase → phase.moving = false

/-- Those who wait stand in the order in which they came. At most one task is under way: a task that comes finds nobody
who was woken, one that was admitted finds nobody parked, and one that ends finds nobody who was woken. -/
inductive InLine (p : Pool) : Prop
  | idle (hidle : p.Idle) (hsorted : (submitters (p.parked ++ p.woken)).Pairwise (· < ·))
  | coming (i : Nat) (hi : p.phase? i = some .arriving) (halone : p.Alone i) (hlast : i + 1 = p.tasks.length)
      (hwoken : p.woken = []) (hsorted : (submitters p.parked).Pairwise (· < ·))
  | starting (i n : Nat) (hi : p.phase? i = some (.admitted n) ∨ p.phase? i = some (.stuck n)) (halone : p.Alone i)
      (hparked : submitters p.parked = []) (hsorted : (submitters p.woken).Pairwise (· < ·))
  | ending (i n : Nat) (hi : p.phase? i = some (.ended n)) (halone : p.Alone i) (hwoken : p.woken = [])
      (hsorted : (submitters p.parked).Pairwise (· < ·))

theorem new_inLine (capacity : Int) (name : String) : InLine (new capacity name) :=
  .idle (fun i phase h => by simp [phase?, new] at h) (by simp [new, submitters])

theorem Idle.alone (h : p.Idle) (i : Nat) : p.Alone i := fun j phase _ => h j phase

theorem Moved.alone {old new : Phase} (h : Moved p q i old new) (halone : p.Alone i) : q.Alone i :=
  fun j phase hj hphase => halone j phase hj (h.others j hj ▸ hphase)

theorem Moved.idle {old new : Phase} (h : Moved p q i old new) (halone : p.Alone i) (hnew : new.moving = false) :
    q.Idle := by
  intro j phase hphase
  by_cases hj : j = i
  · subst hj
    obtain rfl := Option.some.inj (h.after.symm.trans hphase)
    exact hnew
  · exact h.alone halone j phase hj hphase

theorem Idle.of_phase? (h : p.Idle) (hphase : q.phase? = p.phase?) : q.Idle :=
  fun i phase hi => h i phase (hphase ▸ hi)

/-! ## What the scheduler lets happen -/

theorem moving_of_taskAction?_some {threads : Bool} {phase : Phase} (h : taskAction? threads i phase = some a) :
    phase.moving = true := by
  cases phase <;> first | rfl | cases h

theorem Settled.idle (h : p.Settled) : p.Idle := by
  intro i phase hphase
  cases phase with
  | arriving => cases h.waiting hphase rfl
  | admitted n | stuck n | ended n =>
    obtain ⟨m, hm⟩ := h.runs hphase rfl
    cases hm
  | _ => rfl

theorem Settled.woken (h : p.Settled) (hp : Waited p) : p.woken = [] := by
  rw [List.eq_nil_iff_forall_not_mem]
  intro w hw
  exact h.not_woken ((hp.queued.known w).2 (.inr hw)) hw

theorem Scheduled.of_moving {phase : Phase} (h : Scheduled p a) (hi : p.phase? i = some phase)
    (hmoving : phase.moving = true) (halone : p.Alone i) : ∃ threads, taskAction? threads i phase = some a := by
  have hbusy : ¬ p.Idle := fun hidle => by simp [hidle i phase hi] at hmoving
  cases h with
  | task j other threads b hj hb =>
    by_cases hne : j = i
    · subst hne
      obtain rfl := Option.some.inj (hi.symm.trans hj)
      exact ⟨threads, hb⟩
    · have hstill := halone j other hne hj
      simp [moving_of_taskAction?_some hb] at hstill
  | join j hidle => exact absurd hidle hbusy
  | wake w rest hidle => exact absurd hidle hbusy
  | demand d hsettled => exact absurd hsettled.idle hbusy

/-! ## One step -/

theorem sorted_concat {l : List Nat} (h : l.Pairwise (· < ·)) (hi : ∀ j ∈ l, j < i) :
    (l ++ [i]).Pairwise (· < ·) := by
  rw [List.pairwise_append]
  refine ⟨h, List.pairwise_singleton _ _, fun j hj k hk => ?_⟩
  rw [List.mem_singleton.1 hk]
  exact hi j hj

theorem Waited.nobody_parked (hp : Waited p) (hroom : p.running < p.capacity) : submitters p.parked = [] := by
  rw [List.eq_nil_iff_forall_not_mem]
  intro i hi
  have := (hp.full i (mem_submitters.1 hi)).2
  omega

theorem Waited.lt_of_parked (hp : Waited p) (hi : i ∈ submitters p.parked) :
    p.phase? i = some .waiting ∧ i < p.tasks.length := by
  have hwaits : p.Waits (.submitter i) := (hp.queued.known _).2 (.inl (mem_submitters.1 hi))
  obtain ⟨t, ht, -⟩ := phase?_eq_some.1 hwaits
  exact ⟨hwaits, (List.getElem?_eq_some_iff.1 ht).1⟩

theorem coming_inLine (hp : Waited p) (hi : p.phase? i = some .arriving) (halone : p.Alone i)
    (hlast : i + 1 = p.tasks.length) (hwoken : p.woken = []) (hsorted : (submitters p.parked).Pairwise (· < ·))
    (h : Step p (.enter i) q) : InLine q := by
  obtain ⟨old, new, -, hmoved⟩ := h.turn rfl
  cases h with
  | reject i old h hclosed =>
    have hafter := phase?_setPhase_self (p := p.unwake (.submitter i)) h.phase? (.refused .closed)
    obtain rfl := Option.some.inj (hmoved.after.symm.trans hafter)
    refine .idle (hmoved.idle halone rfl) ?_
    simpa [unwake, setPhase, hwoken] using hsorted
  | accept i old h hopen hroom =>
    refine .starting i (p.spawned + 1) (.inl ?_) (hmoved.alone halone) (hp.nobody_parked hroom) ?_
    · exact phase?_setPhase_self (p := p.unwake (.submitter i)) h.phase? (.admitted (p.spawned + 1))
    · simp [unwake, setPhase, hwoken, submitters]
  | park i old h hopen hfull =>
    have hafter := phase?_setPhase_self (p := p.unwake (.submitter i)) h.phase? .waiting
    obtain rfl := Option.some.inj (hmoved.after.symm.trans hafter)
    refine .idle (hmoved.idle halone rfl) ?_
    -- Tasks are numbered as they come, so all who are parked already have lower numbers.
    have hbefore : ∀ j ∈ submitters p.parked, j < i := by
      intro j hj
      obtain ⟨hwaiting, hlt⟩ := hp.lt_of_parked hj
      have hne : j ≠ i := by
        rintro rfl
        simp [hi] at hwaiting
      omega
    have hline := sorted_concat hsorted hbefore
    simpa [unwake, setPhase, hwoken, submitters, Waiter.task?] using hline

/-- The first who was woken leaves the line, or waits again behind the others who have looked. -/
theorem woken_inLine {rest : List Waiter} (hp : Waited p) (hidle : p.Idle) (hwoken : p.woken = .submitter i :: rest)
    (hsorted : (submitters (p.parked ++ p.woken)).Pairwise (· < ·)) (h : Step p (.enter i) q) : InLine q := by
  obtain ⟨old, new, -, hmoved⟩ := h.turn rfl
  have hline : (submitters p.parked ++ i :: submitters rest).Pairwise (· < ·) := by
    rwa [submitters_append, hwoken] at hsorted
  -- The first of the line leaves it, or it goes from the woken to the parked, where it is behind no later one.
  cases h with
  | reject i old h hclosed =>
    have hafter := phase?_setPhase_self (p := p.unwake (.submitter i)) h.phase? (.refused .closed)
    obtain rfl := Option.some.inj (hmoved.after.symm.trans hafter)
    refine .idle (hmoved.idle (hidle.alone i) rfl) ?_
    have hless := hline.sublist ((List.sublist_cons_self i (submitters rest)).append_left (submitters p.parked))
    simpa [unwake, setPhase, hwoken, submitters_append] using hless
  | accept i old h hopen hroom =>
    refine .starting i (p.spawned + 1) (.inl ?_) (hmoved.alone (hidle.alone i)) (hp.nobody_parked hroom) ?_
    · exact phase?_setPhase_self (p := p.unwake (.submitter i)) h.phase? (.admitted (p.spawned + 1))
    · have hless := (List.pairwise_append.1 hline).2.1.of_cons
      simpa [unwake, setPhase, hwoken] using hless
  | park i old h hopen hfull =>
    have hafter := phase?_setPhase_self (p := p.unwake (.submitter i)) h.phase? .waiting
    obtain rfl := Option.some.inj (hmoved.after.symm.trans hafter)
    refine .idle (hmoved.idle (hidle.alone i) rfl) ?_
    simpa [unwake, setPhase, hwoken, submitters, Waiter.task?] using hline

theorem looked_inLine (hidle : p.Idle) (hsorted : (submitters (p.parked ++ p.woken)).Pairwise (· < ·))
    (h : Step p (.look j) q) : InLine q := by
  have hphase : q.phase? = p.phase? := by cases h <;> rfl
  refine .idle (hidle.of_phase? hphase) ?_
  cases h with
  | pass j old h hidle => simpa [unwake, submitters_append, submitters_erase_joiner] using hsorted
  | rest j old h hbusy =>
    have hnone : submitters [.joiner j] = [] := rfl
    show (submitters (p.parked ++ [.joiner j] ++ p.woken.erase (.joiner j))).Pairwise (· < ·)
    rw [submitters_append, submitters_append, hnone, List.append_nil, submitters_erase_joiner, ← submitters_append]
    exact hsorted

theorem starting_inLine {threads : Bool} {phase : Phase}
    (hphase : phase = .admitted n ∨ phase = .stuck n) (hi : p.phase? i = some phase) (halone : p.Alone i)
    (hparked : submitters p.parked = []) (hsorted : (submitters p.woken).Pairwise (· < ·))
    (ha : taskAction? threads i phase = some a) (h : Step p a q) : InLine q := by
  rcases hphase with rfl | rfl
  · obtain rfl := Option.some.inj ha
    obtain ⟨old, new, hturn, hmoved⟩ := h.turn rfl
    cases h with
    | start i m possible hm =>
      have hafter := phase?_setPhase_self hm (if threads then .running m else .stuck m)
      obtain rfl := Option.some.inj (hmoved.after.symm.trans hafter)
      -- With a thread the task runs and nobody is under way; without one it still has its slot to give back.
      cases threads with
      | true =>
        refine .idle (hmoved.idle halone rfl) ?_
        simpa [setPhase, submitters_append, hparked] using hsorted
      | false => exact .starting i m (.inr hafter) (hmoved.alone halone) hparked hsorted
  · obtain rfl := Option.some.inj ha
    obtain ⟨old, new, hturn, hmoved⟩ := h.turn rfl
    cases hturn with
    | release m =>
      have hbefore := hmoved.before
      simp [hi] at hbefore
    | giveUp m =>
      refine .idle (hmoved.idle halone rfl) ?_
      cases h <;> simpa [giveBack, setPhase, notifyAll, submitters_append, hparked] using hsorted

theorem ending_inLine (halone : p.Alone i) (hwoken : p.woken = [])
    (hsorted : (submitters p.parked).Pairwise (· < ·)) (h : Step p (.release i) q) : InLine q := by
  obtain ⟨old, new, hturn, hmoved⟩ := h.turn rfl
  have hidle : q.Idle := by
    cases hturn with
    | release m => exact hmoved.idle halone rfl
    | giveUp m => exact hmoved.idle halone rfl
  refine .idle hidle ?_
  cases h <;> simpa [giveBack, setPhase, notifyAll, hwoken] using hsorted

theorem demanded_inLine (hp : Waited p) (hsettled : p.Settled)
    (hline : (submitters (p.parked ++ p.woken)).Pairwise (· < ·)) (d : Demand) (h : Step p d.action q) : InLine q := by
  have hidle := hsettled.idle
  have hwoken := hsettled.woken hp
  have hsorted : (submitters p.parked).Pairwise (· < ·) := by rwa [hwoken, List.append_nil] at hline
  -- A settled pool has nobody under way and nobody woken, so what is asked starts from a sorted line.
  cases d with
  | submit error =>
    cases h with
    | submit =>
      refine .coming p.tasks.length ?_ ?_ (by simp) hwoken hsorted
      · rw [phase?_submit, if_pos rfl]
      · intro j phase hj hphase
        rw [phase?_submit, if_neg hj] at hphase
        exact hidle j phase hphase
  | finish i =>
    obtain ⟨old, new, hturn, hmoved⟩ := h.turn rfl
    cases hturn with
    | finish m =>
      refine .ending i m hmoved.after (hmoved.alone (hidle.alone i)) ?_ ?_
      · cases h with
        | finish => exact hwoken
      · cases h with
        | finish => exact hsorted
  | tune n =>
    cases h with
    | tune => exact .idle hidle (by simpa [notifyAll, hwoken] using hsorted)
  | close =>
    cases h with
    | close => exact .idle hidle (by simpa [notifyAll, hwoken] using hsorted)
  | join =>
    cases h with
    | join => exact .idle hidle hline

theorem Step.inLine (h : Step p a q) (hp : Waited p) (hline : InLine p) (ha : Scheduled p a) : InLine q := by
  -- Where a task is under way the scheduler goes on with it, and only its own action is to be looked at.
  cases hline with
  | idle hidle hsorted =>
    cases ha with
    | task i phase threads b hi hb =>
      have hstill := hidle i phase hi
      simp [moving_of_taskAction?_some hb] at hstill
    | join j _ hj => exact looked_inLine hidle hsorted h
    | wake w rest _ hwoken =>
      cases w with
      | submitter i => exact woken_inLine hp hidle hwoken hsorted h
      | joiner j => exact looked_inLine hidle hsorted h
    | demand d hsettled => exact demanded_inLine hp hsettled hsorted d h
  | coming i hi halone hlast hwoken hsorted =>
    obtain ⟨threads, ht⟩ := ha.of_moving hi rfl halone
    obtain rfl := Option.some.inj ht
    exact coming_inLine hp hi halone hlast hwoken hsorted h
  | starting i n hi halone hparked hsorted =>
    rcases hi with hi | hi
    · obtain ⟨threads, ht⟩ := ha.of_moving hi rfl halone
      exact starting_inLine (.inl rfl) hi halone hparked hsorted ht h
    · obtain ⟨threads, ht⟩ := ha.of_moving hi rfl halone
      exact starting_inLine (.inr rfl) hi halone hparked hsorted ht h
  | ending i n hi halone hwoken hsorted =>
    obtain ⟨threads, ht⟩ := ha.of_moving hi rfl halone
    obtain rfl := Option.some.inj ht
    exact ending_inLine halone hwoken hsorted h

/-! ## The order of admissions -/

theorem Scheduled.enter (h : Scheduled p (.enter i)) :
    p.phase? i = some .arriving ∨ p.Idle ∧ ∃ rest, p.woken = .submitter i :: rest := by
  generalize hb : Action.enter i = b at h
  cases h with
  | task j phase threads b hj ha =>
    subst hb
    cases phase with
    | arriving =>
      obtain rfl : j = i := by simpa [taskAction?] using ha
      exact .inl hj
    | _ => cases ha
  | join => cases hb
  | wake w rest hidle hwoken =>
    cases w with
    | submitter k =>
      obtain rfl := Action.enter.inj hb
      exact .inr ⟨hidle, rest, hwoken⟩
    | joiner => cases hb
  | demand d => cases d <;> cases hb

/-- When somebody comes to an orderly pool nobody else is under way, and nobody was woken. -/
theorem InLine.of_arriving (h : InLine p) (hi : p.phase? i = some .arriving) : p.Alone i ∧ p.woken = [] := by
  have hself {k : Nat} {phase : Phase} (hk : p.phase? k = some phase) (halone : p.Alone k) : phase = .arriving := by
    by_cases hne : i = k
    · subst hne
      exact Option.some.inj (hk.symm.trans hi)
    · cases halone i .arriving hne hi
  cases h with
  | idle hidle => cases hidle i .arriving hi
  | coming k hk halone hlast hwoken =>
    obtain rfl : i = k := by
      by_contra hne
      cases halone i .arriving hne hi
    exact ⟨halone, hwoken⟩
  | starting k m hk halone =>
    rcases hk with hk | hk
    · cases hself hk halone
    · cases hself hk halone
  | ending k m hk halone => cases hself hk halone

theorem InLine.sorted_of_idle (h : InLine p) (hidle : p.Idle) :
    (submitters (p.parked ++ p.woken)).Pairwise (· < ·) := by
  cases h with
  | idle _ hsorted => exact hsorted
  | coming i hi => cases hidle i .arriving hi
  | starting i n hi =>
    rcases hi with hi | hi
    · cases hidle i (.admitted n) hi
    · cases hidle i (.stuck n) hi
  | ending i n hi => cases hidle i (.ended n) hi

/-- Whoever is admitted is the first of all who are blocked. -/
theorem InLine.admits (hline : InLine p) (hp : Waited p) (ha : Scheduled p a) (h : Step p a q)
    (hadmission : p.admission? a = some (i, n)) (hji : j < i) : (p.stage j).blocked = false := by
  obtain ⟨rfl, -⟩ := h.enter_of_admission? hadmission
  obtain ⟨old, new, -, hmoved⟩ := h.turn rfl
  have hparked : submitters p.parked = [] := by
    cases h.booking with
    | admission k hk hsame hopen hroom => exact hp.nobody_parked hroom
    | none hnone => simp [hnone] at hadmission
  obtain ⟨phase, hphase⟩ : ∃ phase, p.phase? j = some phase := by
    obtain ⟨t, ht, -⟩ := phase?_eq_some.1 hmoved.before
    have hi := (List.getElem?_eq_some_iff.1 ht).1
    exact ⟨_, phase?_eq_some.2 ⟨_, List.getElem?_eq_getElem (Nat.lt_trans hji hi), rfl⟩⟩
  rw [stage, hphase, Option.getD_some]
  -- Somebody who is blocked and not just coming was woken, because where there is room nobody is parked.
  have hwoken (hmoving : phase.moving = false) : phase.blocked = false ∨ j ∈ submitters p.woken := by
    cases phase with
    | waiting =>
      refine .inr (mem_submitters.2 (((hp.queued.known (.submitter j)).1 hphase).resolve_left fun hj => ?_))
      have hmem := mem_submitters.2 hj
      simp [hparked] at hmem
    | arriving => cases hmoving
    | _ => exact .inl rfl
  rcases ha.enter with hi | ⟨hidle, rest, hrest⟩
  · obtain ⟨halone, hnone⟩ := hline.of_arriving hi
    refine (hwoken (halone j phase (Nat.ne_of_lt hji) hphase)).resolve_right ?_
    simp [hnone, submitters]
  · refine (hwoken (hidle j phase hphase)).resolve_right fun hj => ?_
    have hsorted := hline.sorted_of_idle hidle
    rw [submitters_append, hparked, List.nil_append, hrest] at hsorted
    rw [hrest] at hj
    have hfirst : ∀ k ∈ submitters rest, i < k := (List.pairwise_cons.1 hsorted).1
    rcases List.mem_cons.1 (show j ∈ i :: submitters rest from hj) with rfl | hj
    · exact Nat.lt_irrefl _ hji
    · exact Nat.lt_asymm hji (hfirst j hj)

theorem Step.unblocked (h : Step p a q) (hj : (p.stage j).blocked = false) : (q.stage j).blocked = false := by
  by_cases ha : a.task? = some j
  · obtain ⟨old, new, hturn, hmoved⟩ := h.turn ha
    rw [stage, hmoved.before, Option.getD_some] at hj
    rw [stage, hmoved.after, Option.getD_some]
    cases hturn with
    | wait old hold | accept old n hold | reject old hold => simp [hold] at hj
    | start n possible => cases possible <;> rfl
    | _ => rfl
  · rwa [h.stage_of_ne ha]

theorem Step.unblocked_of_admission? (h : Step p a q) (hadmission : p.admission? a = some (i, n)) :
    (p.stage i).blocked = true ∧ (q.stage i).blocked = false := by
  cases h.booking with
  | none hnone => simp [hnone] at hadmission
  | admission k ha hk hopen hroom hrunning hspawned hphase =>
    obtain ⟨rfl, rfl⟩ := Prod.mk.inj (Option.some.inj (hk.symm.trans hadmission))
    subst ha
    obtain ⟨old, new, hturn, hmoved⟩ := h.turn rfl
    refine ⟨?_, by rw [stage, hphase]; rfl⟩
    rw [stage, hmoved.before, Option.getD_some]
    cases hturn <;> assumption

/-- How an orderly run has served those who came. -/
structure Served (p : Pool) (as : List Action) (q : Pool) : Prop where
  line : InLine q
  /-- All have come past the pool who came before somebody who was admitted. -/
  past : ∀ t ∈ p.admissions as, ∀ i ≤ t.1, (q.stage i).blocked = false
  order : ((p.admissions as).map Prod.fst).Pairwise (· < ·)

theorem run_served (hp : Waited p) (hcounted : p.Counted) (hline : InLine p) (h : p.run? as = some q)
    (has : Orderly p as) : Served p as q := by
  revert has
  refine run_induction (P := fun as q => Orderly p as → Served p as q)
    (fun _ => ⟨hline, by simp [admissions], by simp [admissions]⟩) ?_ h
  intro as a q r hrun ih hstep has
  have hscheduled : Scheduled q a := has as a [] q rfl hrun
  have hq := run_waited hrun hp hcounted
  obtain ⟨hqline, hpast, horder⟩ := ih has.of_append
  refine ⟨hstep.inLine hq hqline hscheduled, ?_, ?_⟩
  · rw [admissions_concat hrun]
    intro t ht i hi
    rcases List.mem_append.1 ht with ht | ht
    · exact hstep.unblocked (hpast t ht i hi)
    · have hadmission : q.admission? a = some (t.1, t.2) := by simpa using ht
      rcases Nat.lt_or_eq_of_le hi with hlt | rfl
      · exact hstep.unblocked (hqline.admits hq hscheduled hstep hadmission hlt)
      · exact (hstep.unblocked_of_admission? hadmission).2
  · rw [admissions_concat hrun, List.map_append]
    cases hadmission : q.admission? a with
    | none => simpa using horder
    | some t =>
      refine sorted_concat horder fun k hk => ?_
      obtain ⟨s, hs, rfl⟩ := List.mem_map.1 hk
      -- Whoever is admitted now is blocked before, so that nobody behind was admitted.
      by_contra hge
      have hblocked := (hstep.unblocked_of_admission? (i := t.1) (n := t.2) hadmission).1
      simp [hpast s hs t.1 (Nat.le_of_not_lt hge)] at hblocked

def Action.submits : Action → Bool
  | .submit _ => true
  | _ => false

theorem Step.length_tasks (h : Step p a q) : q.tasks.length = p.tasks.length + a.submits.toNat := by
  cases htask : a.task? with
  | some i =>
    obtain ⟨old, new, hturn, hmoved⟩ := h.turn htask
    rw [hmoved.length]
    cases hturn <;> rfl
  | none =>
    cases h with
    | submit error => simp [Action.submits]
    | tune | close | join | pass | rest => rfl
    | _ => cases htask

theorem run_length_tasks (h : p.run? as = some q) :
    q.tasks.length = p.tasks.length + as.countP Action.submits := by
  refine run_induction (P := fun as q => q.tasks.length = p.tasks.length + as.countP Action.submits) rfl ?_ h
  intro as a q r hrun ih hstep
  rw [hstep.length_tasks, ih, List.countP_append, List.countP_singleton]
  cases a.submits <;> rfl

/-- Submitters are served in the order in which they came. -/
structure ServedInOrder (p : Pool) (as : List Action) (q : Pool) : Prop where
  /-- Tasks have their numbers from the order in which they come. -/
  numbers : ∀ before error after r s, as = before ++ .submit error :: after → p.run? before = some r →
    r.step? (.submit error) = some s → s.phase? (before.countP Action.submits) = some .arriving
  /-- Nobody is admitted while somebody who came before is still blocked, -/
  first : ∀ before a after r i n, as = before ++ a :: after → p.run? before = some r →
    r.admission? a = some (i, n) → ∀ j < i, (r.stage j).blocked = false
  /-- so that the tasks are admitted in the order of their numbers. -/
  order : ((p.admissions as).map Prod.fst).Pairwise (· < ·)
  /-- Whoever is blocked has not been overtaken. -/
  waiting : ∀ i, (q.stage i).blocked = true → ∀ t ∈ p.admissions as, t.1 < i

theorem served_in_order (capacity : Int) (name : String) (demands : List (Demand × Bool)) :
    (new capacity name).run? ((new capacity name).serving demands) = some ((new capacity name).serve demands) ∧
      ServedInOrder (new capacity name) ((new capacity name).serving demands) ((new capacity name).serve demands) := by
  have hrun := run?_serving (new capacity name) demands
  have hp := new_waited capacity name
  have hcounted := new_counted capacity name
  have horderly := serving_orderly hp hcounted (new_settled capacity name) demands
  refine ⟨hrun, ?_⟩
  constructor
  · intro before error after r s hsplit hr hs
    have hlength : r.tasks.length = before.countP Action.submits := by simpa [new] using run_length_tasks hr
    obtain rfl := Option.some.inj hs
    rw [phase?_submit, if_pos hlength.symm]
  · intro before a after r i n hsplit hr hadmission j hji
    rw [hsplit] at hrun horderly
    rw [run?_append, hr, Option.bind_some] at hrun
    obtain ⟨s, hs, -⟩ := Option.bind_eq_some_iff.1 hrun
    have hline := (run_served hp hcounted (new_inLine capacity name) hr horderly.of_append).line
    exact hline.admits (run_waited hr hp hcounted) (horderly before a after r rfl hr) (step?_eq_some.1 hs)
      hadmission hji
  · exact (run_served hp hcounted (new_inLine capacity name) hrun horderly).order
  · intro i hblocked t ht
    by_contra hge
    have hpast := (run_served hp hcounted (new_inLine capacity name) hrun horderly).past t ht i (Nat.le_of_not_lt hge)
    simp [hpast] at hblocked

example : (((new 1 "pool").admissions ((new 1 "pool").serving [(.submit none, true), (.submit none, true),
    (.join, true), (.submit none, true), (.tune 2, false), (.submit none, true), (.finish 0, true)])).map Prod.fst) =
      [0, 1, 2, 3] := by
  decide +kernel

end Thumbnailer.Pool
