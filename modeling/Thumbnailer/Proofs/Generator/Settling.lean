import Thumbnailer.Generator.Schedule
import Thumbnailer.Proofs.Generator.Progress
import Thumbnailer.Proofs.Generator.Quiet

/-!
# Calls that settle

What the schedule lets happen next can happen, and where it finds nothing more every call is over: its result is
delivered and its caller has been answered.
-/

namespace Thumbnailer.Generator

variable {g g' : Generator} {a : Action} {as : List Action} {c : Nat} {k : Call} {r : Request}

/-! ## What a call does next -/

/-- The action is one that a call goes on by, undisturbed. -/
def Action.calm (a : Action) : Bool := a.own?.isSome && a.quiet

theorem step?_of_call (hk : g.calls[c]? = some k) (hr : g.requestOf? k = some r) (ha : a.call? = some c) :
    g.step? a = g.callStep? c k r a := by
  rw [step?_eq_callStep? ha, hk, Option.bind_some, hr, Option.bind_some]

theorem isSome_release {n : Nat} {o : Result} (hw : k.work = .left o) (hp : g.phaseOf? k = some (.running n)) :
    (g.callStep? c k r (.release c)).isSome := by
  obtain ⟨i, hi, hpool⟩ := phase?_of_phaseOf? hp
  obtain ⟨q, hq⟩ := Option.isSome_iff_exists.1 (Pool.finish_release_isSome hpool)
  obtain ⟨p, hp, hq⟩ := Option.bind_eq_some_iff.1 hq
  simp [callStep?, hw, onPool?, hi, hp, hq]

theorem workAction?_possible (h : g.workAction? c k = some a) :
    a.own? = some c ∧ a.quiet = true ∧ (g.callStep? c k r a).isSome := by
  unfold workAction? at h
  cases hw : k.work with
  | idle =>
    simp only [hw] at h
    split at h
    · next hrun =>
      obtain rfl := Option.some.inj h
      exact ⟨rfl, rfl, by simp [callStep?, hrun, hw]⟩
    · cases h
  | armed since expired =>
    simp only [hw, Option.some.injEq] at h
    subst h
    exact ⟨rfl, rfl, by simp [callStep?, hw]⟩
  | alive since opened id stdout =>
    simp only [hw] at h
    split at h
    · cases h
    · obtain rfl := Option.some.inj h
      exact ⟨rfl, rfl, by simp [callStep?, hw]⟩
  -- A worker is there to be released as long as the run may begin, for which its task must be running.
  | left o =>
    simp only [hw] at h
    split at h
    · next hpooled =>
      obtain rfl := Option.some.inj h
      refine ⟨rfl, rfl, ?_⟩
      simp only [Bool.and_eq_true, decide_eq_true_eq, mayRun] at hpooled
      obtain ⟨hm, hrun⟩ := hpooled
      rw [hm] at hrun
      split at hrun
      · cases ‹Mode.pooled = Mode.direct›
      · split at hrun
        · exact isSome_release hw ‹_›
        · cases hrun
    · cases h
  | _ =>
    simp only [hw, Option.some.injEq] at h
    subst h
    refine ⟨rfl, rfl, ?_⟩
    simp only [callStep?, hw]
    split <;> rfl

theorem callAction?_possible (hs : (g.viewOf c k r).Stage) (h : g.callAction? true c k = some a) :
    a.own? = some c ∧ a.quiet = true ∧ (g.callStep? c k r a).isSome := by
  unfold callAction? at h
  cases hc : k.caller with
  | calling =>
    simp only [hc, Option.some.injEq] at h
    subst h
    refine ⟨rfl, rfl, ?_⟩
    simp only [callStep?, if_pos hc]
    split <;> rfl
  | leaving why =>
    simp only [hc, Option.some.injEq] at h
    subst h
    exact ⟨rfl, rfl, by simp [callStep?, hc]⟩
  | returned id => exact workAction?_possible (by simpa [hc] using h)
  | refused why | finished e => simp [hc] at h
  | inside =>
    simp only [hc] at h
    cases hp : g.phaseOf? k with
    | none => exact workAction?_possible (by simpa [hp] using h)
    | some phase =>
      obtain ⟨i, hi, hpool⟩ := phase?_of_phaseOf? hp
      cases phase with
      | waiting => simp [hp] at h
      | arriving =>
        simp only [hp, Option.some.injEq] at h
        subst h
        exact ⟨rfl, rfl, by simpa [callStep?, onPool?, hi] using Pool.enter_isSome hpool⟩
      | admitted n =>
        simp only [hp, Option.some.injEq] at h
        subst h
        exact ⟨rfl, rfl, by simpa [callStep?, onPool?, hi] using Pool.start_isSome hpool true⟩
      | stuck n =>
        simp only [hp, Option.some.injEq] at h
        subst h
        exact ⟨rfl, rfl, by simpa [callStep?, onPool?, hp, hi] using Pool.release_isSome hpool⟩
      | running n | ended n | done n =>
        simp only [hp, Option.some.injEq] at h
        subst h
        exact ⟨rfl, rfl, by simp [callStep?, hc, hp, Pool.Phase.worker?]⟩
      | refused why =>
        -- Nobody whom the pool has refused is still inside.
        have hview : (g.viewOf c k r).phase = some (.refused why) := hp
        rcases (hs.of_refused hview).1 with hcaller | hcaller <;> simp [viewOf, hc] at hcaller

/-! ## Calls with nothing left to do -/

/-- The caller has his answer, and the run has come to its end if there was one. -/
inductive Call.Over (k : Call) : Prop
  | refused (why : Pool.Refusal) (hc : k.caller = .refused why)
  | finished (o : Result) (hm : k.mode = .direct) (hc : k.caller = .finished o.error?) (hw : k.work = .left o)
  | returned (id : Nat) (o : Result) (hm : k.mode = .pooled) (hc : k.caller = .returned id) (hw : k.work = .left o)

/-- The call is over and holds no slot. -/
structure Gone (g : Generator) (k : Call) : Prop where
  call : k.Over
  slot : ∀ phase, g.phaseOf? k = some phase → phase.holdsSlot = false

theorem View.Runs.mayRun (h : (g.viewOf c k r).Runs) : g.mayRun k = true := by
  rcases h with ⟨hm, hc, -⟩ | ⟨hm, -, n, hp⟩
  · have hm : k.mode = .direct := hm
    have hc : k.caller = .inside := hc
    simp [Generator.mayRun, hm, hc]
  · have hm : k.mode = .pooled := hm
    have hp : g.phaseOf? k = some (.running n) := hp
    simp [Generator.mayRun, hm, hp]

theorem workAction?_none (hruns : (g.viewOf c k r).Runs) (hr : g.requestOf? k = some r)
    (hheld : r.child.held = true → g.callStep? c k r (.exit c) = none) (h : g.workAction? c k = none) :
    k.mode = .direct ∧ ∃ o, k.work = .left o := by
  have hrun := hruns.mayRun
  unfold workAction? at h
  cases hw : k.work with
  | idle => simp [hw, hrun] at h
  | alive since opened id stdout =>
    cases hchild : r.child.held with
    | false => simp [hw, hr, hchild] at h
    | true => simp [callStep?, hw] at hheld; simp [hchild] at hheld
  | left o =>
    refine ⟨?_, o, rfl⟩
    cases hm : k.mode with
    | direct => rfl
    | pooled => simp [hw, hm, hrun] at h
  | _ => simp [hw] at h

theorem callAction?_none (hs : (g.viewOf c k r).Stage) (hr : g.requestOf? k = some r)
    (hheld : r.child.held = true → g.callStep? c k r (.exit c) = none) (h : g.callAction? true c k = none) :
    g.phaseOf? k = some .waiting ∨ g.Gone k := by
  unfold callAction? at h
  cases hs with
  | calling hc hp hw => simp [viewOf] at hc; simp [hc] at h
  | leaving why hm hc hp hw => simp [viewOf] at hc; simp [hc] at h
  | refused why hm hc hp hw =>
    have hp' : g.phaseOf? k = some (.refused why) := hp
    exact .inr ⟨.refused why hc, by simp [hp', Pool.Phase.holdsSlot]⟩
  | finished o hm hc hp hw =>
    have hp' : g.phaseOf? k = none := hp
    exact .inr ⟨.finished o hm hc hw, by simp [hp']⟩
  | direct hm hc hp hw =>
    have hc' : k.caller = .inside := hc
    have hp' : g.phaseOf? k = none := hp
    obtain ⟨-, o, ho⟩ := workAction?_none (.inl ⟨hm, hc, hp⟩) hr hheld (by simpa [hc', hp'] using h)
    exact absurd ho (hw o)
  | blocked hm hc hp hw =>
    have hc' : k.caller = .inside := hc
    rcases hp with hp | hp
    · have hp' : g.phaseOf? k = some .arriving := hp
      simp [hc', hp'] at h
    · exact .inl hp
  | admitted n hm hc hp hw | stuck n hm hc hp hw =>
    simp only [viewOf] at hc hp
    simp [hc, hp] at h
  | running n hm hc hp =>
    simp only [viewOf] at hc hp
    -- A worker goes on with its run, and with its task when the run has come to its end.
    rcases hc with hc | ⟨id, hc⟩
    · simp [hc, hp] at h
    · obtain ⟨hdirect, -⟩ := workAction?_none (.inr ⟨hm, .inr ⟨id, hc⟩, n, hp⟩) hr hheld (by simpa [hc] using h)
      have hm' : k.mode = .pooled := hm
      simp [hm'] at hdirect
  | done n o hm hc hp hw =>
    simp only [viewOf] at hc hp
    rcases hc with hc | ⟨id, hc⟩
    · simp [hc, hp] at h
    · exact .inr ⟨.returned id o hm hc hw, by simp [hp, Pool.Phase.holdsSlot]⟩

theorem Backed.all_gone (hg : Backed g) (hnone : ∀ c k, g.calls[c]? = some k → g.callAction? true c k = none)
    (hwaits : ∀ c, g.step? (.enter c) = none)
    (hheld : ∀ c k r, g.calls[c]? = some k → g.requestOf? k = some r → r.child.held = true →
      g.step? (.exit c) = none) (hk : g.calls[c]? = some k) : g.Gone k := by
  have hcases {d : Nat} {l : Call} (hl : g.calls[d]? = some l) : g.phaseOf? l = some .waiting ∨ g.Gone l := by
    obtain ⟨r, hr, hv⟩ := hg.sound.tied.view? hl
    refine callAction?_none (hg.sound.stage d _ hv) hr (fun hchild => ?_) (hnone d l hl)
    rw [← step?_of_call hl hr rfl]
    exact hheld d l r hl hr hchild
  refine (hcases hk).resolve_left fun hp => ?_
  obtain ⟨r, hr, hv⟩ := hg.sound.tied.view? hk
  rcases hg.waiting hv hp with hsome | ⟨d, w, phase, hw, hphase, hslot⟩
  · simp [hwaits c] at hsome
  · -- Whoever holds the slot that the call waits for is neither waiting nor gone.
    obtain ⟨q, hl, -, hsame⟩ := view?_phase hw
    rw [hphase] at hsame
    rcases hcases hl with hp' | hgone
    · rw [hp', Option.some.injEq] at hsame
      simp [← hsame, Pool.Phase.holdsSlot] at hslot
    · simp [hgone.slot phase hsame] at hslot

theorem Backed.gone_of_rest (hg : Backed g) (hrest : ∀ a, a.calm = true → g.step? a = none)
    (hk : g.calls[c]? = some k) : g.Gone k := by
  refine hg.all_gone (fun d l hl => ?_) (fun d => hrest _ rfl) (fun d l r hl hr _ => hrest _ rfl) hk
  obtain ⟨r, hr, hv⟩ := hg.sound.tied.view? hl
  by_contra hsome
  obtain ⟨a, ha⟩ := Option.ne_none_iff_exists'.1 hsome
  obtain ⟨hown, hquiet, hpossible⟩ := callAction?_possible (hg.sound.stage d _ hv) ha
  rw [← step?_of_call hl hr (call?_of_own? hown), hrest a (by simp [Action.calm, hown, hquiet])] at hpossible
  cases hpossible

theorem Backed.idle_of_gone (hg : Backed g) (hgone : ∀ k ∈ g.calls, g.Gone k) : g.outstanding = 0 := by
  refine hg.sound.zero fun k hk _ => ?_
  cases (hgone k hk).call with
  | refused why hc => simp [Call.ended, Caller.rejected, hc]
  | finished o hm hc hw | returned id o hm hc hw => simp [Call.ended, Work.finished, hw]

theorem Gone.callAction?_none (h : g.Gone k) (threads : Bool) (c : Nat) : g.callAction? threads c k = none := by
  have hnot : k.mode = .pooled → g.mayRun k = false := by
    intro hm
    unfold mayRun
    simp only [hm]
    split
    · next n hp => simpa [Pool.Phase.holdsSlot] using h.slot _ hp
    · rfl
  unfold callAction?
  cases h.call with
  | refused why hc => simp [hc]
  | finished o hm hc hw => simp [hc]
  | returned id o hm hc hw => simp [hc, workAction?, hw, hm, hnot]

/-! ## The schedule -/

structure Unwaited (g : Generator) : Prop where
  waits : g.waits = []
  parked : g.parked = []
  woken : g.woken = []

def Unheld (g : Generator) : Prop := ∀ r ∈ g.requests, r.child.held = false

theorem Unwaited.step? (h : Unwaited g) (ha : a.own?.isSome) (hstep : g.step? a = some g') : Unwaited g' := by
  obtain ⟨c, hc⟩ := Option.isSome_iff_exists.1 ha
  obtain ⟨k, r, hk, hr, k', ds, htouched, -⟩ := step?_acted hstep hc
  rcases htouched.woken with ⟨hparked, hwoken, -⟩ | ⟨hparked, hwoken⟩
  · exact ⟨htouched.waits.trans h.waits, hparked.trans h.parked, hwoken.trans h.woken⟩
  · exact ⟨htouched.waits.trans h.waits, hparked, by rw [hwoken, h.woken, h.parked, List.append_nil]⟩

theorem requests_of_own (ha : a.own?.isSome) (hstep : g.step? a = some g') : g'.requests = g.requests := by
  obtain ⟨c, hc⟩ := Option.isSome_iff_exists.1 ha
  obtain ⟨k, r, hk, hr, k', ds, htouched, -⟩ := step?_acted hstep hc
  exact htouched.requests

theorem Backed.wokenAction?_possible (hg : Backed g) {w : Pool.Waiter} (hw : w ∈ g.pool.woken) :
    ∃ c, g.wokenAction? w = some (.enter c) ∧ (g.step? (.enter c)).isSome := by
  have hwaits := (hg.pool.waited.queued.known w).2 (.inr hw)
  -- Nobody joins the pool of a generator, so it is the submitter of some call who was woken.
  cases w with
  | joiner j => simp [Pool.Waits, hg.pool.joins] at hwaits
  | submitter i =>
    obtain ⟨t, ht, -⟩ := Pool.phase?_eq_some.1 hwaits
    obtain ⟨c, k, hk, htask⟩ := hg.owned i (List.getElem?_eq_some_iff.1 ht).1
    have hsome : (g.calls.findIdx? fun k => k.task = some i).isSome :=
      List.findIdx?_isSome.trans (List.any_eq_true.2 ⟨k, List.mem_of_getElem? hk, by simpa using htask⟩)
    obtain ⟨d, hd⟩ := Option.isSome_iff_exists.1 hsome
    obtain ⟨hlt, hfound, -⟩ := List.findIdx?_eq_some_iff_getElem.1 hd
    obtain ⟨r, hr, -⟩ := hg.sound.tied.view? (List.getElem?_eq_getElem hlt)
    refine ⟨d, by simp [wokenAction?, hd], ?_⟩
    rw [step?_of_call (List.getElem?_eq_getElem hlt) hr rfl]
    have htask' : g.calls[d].task = some i := by simpa using hfound
    simp [callStep?, onPool?, htask', (Pool.MayEnter.woken hwaits hw).step?]

/-- What the schedule lets happen next can happen. -/
theorem next?_possible (hg : Backed g) (hu : Unwaited g) (h : g.next? true = some a) :
    a.calm = true ∧ (g.step? a).isSome := by
  unfold next? at h
  split at h
  next b hb =>
    obtain rfl := Option.some.inj h
    obtain ⟨⟨k, c⟩, hmem, hact⟩ := List.exists_of_findSome?_eq_some hb
    have hk : g.calls[c]? = some k := List.mem_zipIdx_iff_getElem?.1 hmem
    obtain ⟨r, hr, hv⟩ := hg.sound.tied.view? hk
    obtain ⟨hown, hquiet, hpossible⟩ := callAction?_possible (hg.sound.stage c _ hv) hact
    exact ⟨by simp [Action.calm, hown, hquiet], by rwa [step?_of_call hk hr (call?_of_own? hown)]⟩
  next =>
    rw [hu.waits, hu.woken] at h
    simp only [List.zipIdx_nil, List.findSome?_nil, List.head?_nil, Option.map_none] at h
    split at h
    next w hw =>
      obtain ⟨c, hc, hpossible⟩ := hg.wokenAction?_possible (List.mem_of_head? hw)
      obtain rfl := Option.some.inj (hc.symm.trans h)
      exact ⟨rfl, hpossible⟩
    next => cases h

theorem enter_none (hg : Backed g) (hnone : ∀ c k, g.calls[c]? = some k → g.callAction? true c k = none)
    (hwoken : g.pool.woken = []) (c : Nat) : g.step? (.enter c) = none := by
  cases hstep : g.step? (.enter c) with
  | none => rfl
  | some g' =>
    obtain ⟨k, r, hk, hr, -⟩ := step?_acted hstep (c := c) rfl
    obtain ⟨i, hi, hpool⟩ := enter_pool hstep hk
    have hs := hg.sound.stage c _ (view?_eq hk hr)
    generalize g'.pool = q at hpool
    -- Whoever looks has just come, which the schedule would have found, or was woken.
    cases Pool.step?_eq_some.1 hpool with
    | reject i old h | accept i old h | park i old h =>
      cases h with
      | woken h hmem => simp [hwoken] at hmem
      | arriving h =>
        have hp : g.phaseOf? k = some .arriving := (phaseOf?_eq hi).trans h
        have hc : k.caller = .inside := (hs.of_blocked (.inl hp)).2.1
        simpa [callAction?, hc, hp] using hnone c k hk

/-- Where the schedule finds nothing more all calls are gone, and nobody was woken at the pool. -/
theorem next?_none (hg : Backed g) (hu : Unwaited g) (hheld : Unheld g) (h : g.next? true = none) :
    (∀ k ∈ g.calls, g.Gone k) ∧ g.pool.woken = [] := by
  unfold next? at h
  split at h
  next => cases h
  next hcalls =>
    have hnone : ∀ c k, g.calls[c]? = some k → g.callAction? true c k = none := fun c k hk =>
      List.findSome?_eq_none_iff.1 hcalls (k, c) (List.mem_zipIdx_iff_getElem?.2 hk)
    have hwoken : g.pool.woken = [] := by
      rw [hu.waits, hu.woken] at h
      simp only [List.zipIdx_nil, List.findSome?_nil] at h
      split at h
      next w hw =>
        obtain ⟨c, hc, -⟩ := hg.wokenAction?_possible (List.mem_of_head? hw)
        cases hc.symm.trans h
      next hw => exact List.head?_eq_none_iff.1 hw
    refine ⟨fun k hk => ?_, hwoken⟩
    obtain ⟨c, hc⟩ := List.getElem?_of_mem hk
    refine hg.all_gone hnone (enter_none hg hnone hwoken) (fun d l r hl hr hchild => ?_) hc
    simp [hheld r (List.mem_of_getElem? hr)] at hchild

/-! ## Settling -/

theorem trace_append {bs : List Action} (h : g.run? as = some g') : g.trace (as ++ bs) = g.trace as ++ g'.trace bs := by
  induction as generalizing g with
  | nil =>
    obtain rfl := Option.some.inj h
    rfl
  | cons a rest ih =>
    obtain ⟨g₁, hfirst, hrest⟩ := Option.bind_eq_some_iff.1 h
    rw [List.cons_append, trace_cons hfirst, trace_cons hfirst, ih hrest, List.cons_append]

theorem launches_append {bs : List Action} (h : g.run? as = some g') :
    g.launches (as ++ bs) = g.launches as ++ g'.launches bs := by
  rw [launches, trace_append h, List.flatMap_append, launches, launches]

def seen (g : Generator) (as : List Action) : List Event := (g.trace as).flatMap Prod.snd

theorem seen_cons (h : g.step? a = some g') : g.seen (a :: as) = g.events a ++ g'.seen as := by
  rw [seen, trace_cons h, List.flatMap_cons, seen]

theorem Call.toGo_le (k : Call) (phase : Option Pool.Phase) : k.toGo phase ≤ 11 := by
  have hcaller : k.caller.ahead ≤ 1 := by cases k.caller <;> simp [Caller.ahead]
  have hwork : k.work.ahead ≤ 6 := by cases k.work <;> simp [Work.ahead]
  unfold Call.toGo
  split <;> omega

theorem Backed.rank_le_settleFuel (hg : Backed g) : g.rank ≤ g.settleFuel := by
  have hsum : g.toGoes.sum ≤ 11 * g.calls.length := sum_map_le (fun k => k.toGo_le _) g.calls
  have hwoken : g.pool.woken.length ≤ g.calls.length := Nat.le_trans hg.pool.woken_le hg.tasks_le
  calc g.rank ≤ 11 * g.calls.length * (g.calls.length + 1) + g.calls.length :=
        Nat.add_le_add (Nat.mul_le_mul_right _ hsum) hwoken
    _ ≤ 16 * (g.calls.length + 2) * (g.calls.length + 2) := by
        have hmul : g.calls.length * (g.calls.length + 1) ≤ (g.calls.length + 2) * (g.calls.length + 2) :=
          Nat.mul_le_mul (by omega) (by omega)
        rw [Nat.mul_assoc, Nat.mul_assoc]
        have hless : g.calls.length < (g.calls.length + 2) * (g.calls.length + 2) := by
          rw [Nat.add_mul]
          omega
        omega
    _ ≤ g.settleFuel := Nat.mul_le_mul (by omega) (by omega)

/-- A generator whose calls are all that goes on. -/
structure Working (g : Generator) : Prop where
  backed : Backed g
  unwaited : Unwaited g
  unheld : Unheld g

theorem Working.step? (hg : Working g) (ha : a.calm = true) (h : g.step? a = some g') : Working g' := by
  have hown : a.own?.isSome := (Bool.and_eq_true_iff.1 ha).1
  refine ⟨step?_backed hg.backed h, hg.unwaited.step? hown h, ?_⟩
  rw [Unheld, requests_of_own hown h]
  exact hg.unheld

/-- The schedule lets calls go on until all of them are gone. -/
theorem settleWithin_gone {fuel : Nat} (hg : Working g) (hfuel : g.rank ≤ fuel) :
    ∃ as, (∀ a ∈ as, a.calm = true) ∧ g.run? as = some (g.settleWithin fuel true).1 ∧
      g.seen as = (g.settleWithin fuel true).2 ∧ Working (g.settleWithin fuel true).1 ∧
      (g.settleWithin fuel true).1.next? true = none := by
  induction fuel generalizing g with
  | zero =>
    refine ⟨[], by simp, rfl, rfl, hg, ?_⟩
    -- A step would lower the rank, which is zero.
    by_contra hsome
    obtain ⟨a, ha⟩ := Option.ne_none_iff_exists'.1 hsome
    obtain ⟨hcalm, hpossible⟩ := next?_possible hg.backed hg.unwaited ha
    obtain ⟨g', hstep⟩ := Option.isSome_iff_exists.1 hpossible
    have hless := step?_rank hg.backed hstep (Bool.and_eq_true_iff.1 hcalm).1
    omega
  | succ fuel ih =>
    rw [settleWithin]
    split
    next hnone => exact ⟨[], by simp, rfl, rfl, hg, hnone⟩
    next a ha =>
      obtain ⟨hcalm, hsome⟩ := next?_possible hg.backed hg.unwaited ha
      obtain ⟨g', hstep⟩ := Option.isSome_iff_exists.1 hsome
      have hless := step?_rank hg.backed hstep (Bool.and_eq_true_iff.1 hcalm).1
      obtain ⟨as, has, hrun, hseen, hworking, hnone⟩ := ih (hg.step? hcalm hstep) (by omega)
      simp only [hstep]
      exact ⟨a :: as, List.forall_mem_cons.2 ⟨hcalm, has⟩, (runFrom?_cons step? hstep as).trans hrun,
        by rw [seen_cons hstep, hseen], hworking, hnone⟩

end Thumbnailer.Generator
