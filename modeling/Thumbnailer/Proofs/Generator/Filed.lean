import Mathlib.Data.List.Flatten
import Thumbnailer.Generator.Schedule
import Thumbnailer.Proofs.Generator.Confluence
import Thumbnailer.Proofs.Generator.Numbers
import Thumbnailer.Proofs.Generator.Settling
import Thumbnailer.Proofs.Generator.Verdicts

/-!
# Calls for a list of requests

A generator that nobody uses but for pooled calls with some requests, one after the other: as long as the pool is
open none of the calls is refused, and when all of them have ended the queue has one result for each request.
-/

namespace Thumbnailer.Generator

variable {g g' : Generator} {a : Action} {as : List Action} {c : Nat} {k : Call} {r : Request} {rs : List Request}
  {plan : Plan} {v v' : View}

/-! ## Open pools -/

theorem onPool?_closed {action : Nat → Pool.Action} (h : g.onPool? k action = some g')
    (ha : ∀ i, action i ≠ .close) : g'.pool.closed = g.pool.closed := by
  obtain ⟨i, p, hi, hp, rfl⟩ := onPool?_eq_some h
  simpa [ha i] using (Pool.step?_eq_some.1 hp).closed

theorem endRun_pool (g : Generator) (c : Nat) (ending : Ending) : (g.endRun c ending).pool = g.pool := by
  unfold endRun
  split
  · split <;> rfl
  · rfl

theorem countDown_pool (g : Generator) : g.countDown.pool = g.pool := by
  unfold countDown
  dsimp only
  split <;> rfl

theorem callStep?_closed (ha : a.own? = some c) (h : g.callStep? c k r a = some g') :
    g'.pool.closed = g.pool.closed := by
  -- `step?_leads` does not help: it holds of a pool that was closed on the way, too.
  cases a with
  | count =>
    simp only [callStep?] at h
    split at h
    · split at h
      · obtain rfl := Option.some.inj h
        rfl
      · obtain ⟨pool, hpool, rfl⟩ := Option.map_eq_some_iff.1 h
        obtain rfl := Option.some.inj hpool
        rfl
    · cases h
  | enter =>
    obtain ⟨g₁, h₁, rfl⟩ := Option.map_eq_some_iff.1 h
    have hsame := onPool?_closed h₁ (by simp)
    split <;> exact hsame
  | start => exact onPool?_closed h (by simp)
  | giveBack =>
    simp only [callStep?] at h
    split at h
    · obtain ⟨g₁, h₁, rfl⟩ := Option.map_eq_some_iff.1 h
      exact (onPool?_closed h₁ (by simp) :)
    · cases h
  | release =>
    simp only [callStep?] at h
    split at h
    · obtain ⟨g₁, h₁, h₂⟩ := Option.bind_eq_some_iff.1 h
      exact (onPool?_closed h₂ (by simp)).trans (onPool?_closed h₁ (by simp))
    · cases h
  | abandon =>
    simp only [callStep?] at h
    split at h
    · obtain rfl := Option.some.inj h
      exact congrArg Pool.closed g.countDown_pool
    · cases h
  | answer =>
    obtain rfl := Option.some.inj ha
    rw [answer_eq h]
    rfl
  | arm =>
    simp only [callStep?] at h
    split at h
    · obtain rfl := Option.some.inj h
      rfl
    · cases h
  | launch =>
    simp only [callStep?] at h
    split at h
    · obtain rfl := Option.some.inj h
      rw [launchRun_eq]
      rfl
    · cases h
  | exit =>
    simp only [callStep?] at h
    split at h
    · obtain rfl := Option.some.inj h
      exact congrArg Pool.closed (g.endRun_pool c .exited)
    · cases h
  | deliver =>
    simp only [callStep?] at h
    split at h
    · split at h <;> obtain rfl := Option.some.inj h <;> rfl
    · cases h
  | leave =>
    simp only [callStep?] at h
    split at h
    · split at h <;> obtain rfl := Option.some.inj h <;> exact congrArg Pool.closed g.countDown_pool
    · cases h
  | _ => cases ha

/-- The call is not refused, nor is it going to be. -/
def View.welcome (v : View) : Bool :=
  match v.phase with
  | some (.stuck _) | some (.refused _) => false
  | _ => true

/-- The pool is open, and no call is refused. -/
structure Open (g : Generator) : Prop where
  pool : g.pool.closed = false
  welcome : ∀ c v, g.view? c = some v → v.welcome = true

theorem enter_not_refused (hopen : g.pool.closed = false) (h : g.step? (.enter c) = some g')
    (hk : g.calls[c]? = some k) : g'.phaseOf? k ≠ some (.refused .closed) := by
  obtain ⟨i, hi, hpool⟩ := enter_pool h hk
  rw [phaseOf?_eq hi]
  generalize g'.pool = q at hpool
  intro hphase
  cases Pool.step?_eq_some.1 hpool with
  | reject i old h hclosed => simp [hopen] at hclosed
  | accept i old h =>
    cases (Pool.phase?_setPhase_self (p := g.pool.unwake (.submitter i)) h.phase? (.admitted _)).symm.trans hphase
  | park i old h =>
    cases (Pool.phase?_setPhase_self (p := g.pool.unwake (.submitter i)) h.phase? .waiting).symm.trans hphase

theorem step?_welcome (hg : Open g) (ht : Tied g) (hquiet : a.quiet = true) (h : g.step? a = some g') {v' : View}
    (hv' : g'.view? c = some v') : v'.welcome = true := by
  cases hv : g.view? c with
  | none => simp [View.welcome, (step?_fresh ht h hv hv').1.phase]
  | some v =>
    have hw := hg.welcome c v hv
    rcases step?_view ht h hv with ⟨ha, w, hw', hturn⟩ | ⟨-, work, hw', -⟩
    · obtain rfl := Option.some.inj (hw'.symm.trans hv')
      -- A call is refused by a closed pool only, and stuck only if no thread can be started.
      cases hturn with
      | refuse hp =>
        obtain ⟨r, hk, -⟩ := view?_eq_some hv
        obtain ⟨-, -, hphase, -⟩ := view?_parts hv'
        exact absurd hphase (enter_not_refused (k := v.call) hg.pool h hk)
      | stick n hp => cases hquiet
      | giveBack n hp => simp [View.welcome, hp] at hw
      | _ => first | rfl | exact hw
    · obtain rfl := Option.some.inj (hw'.symm.trans hv')
      exact hw

theorem step?_open (hg : Open g) (ht : Tied g) (hown : a.own?.isSome) (hquiet : a.quiet = true)
    (h : g.step? a = some g') : Open g' where
  pool := by
    obtain ⟨c, hc⟩ := Option.isSome_iff_exists.1 hown
    obtain ⟨k, r, -, -, hstep⟩ := callStep?_of_step? h (call?_of_own? hc)
    exact (callStep?_closed hc hstep).trans hg.pool
  welcome _ _ hv' := step?_welcome hg ht hquiet h hv'

theorem Open.answered (hg : Open g) (hs : Sound g) (hk : g.calls[c]? = some k) (hm : k.mode = .pooled)
    (hover : k.Over) : k.answered = true ∧ k.work.finished = true := by
  obtain ⟨r, hr, hv⟩ := hs.tied.view? hk
  cases hover with
  | refused why hc =>
    have hw := hg.welcome c _ hv
    have hstage := hs.stage c _ hv
    generalize hview : g.viewOf c k r = v at hw hstage
    have hc' : v.call.caller = .refused why := by rw [← hview]; exact hc
    cases hstage <;> simp_all [View.welcome]
  | finished o hdirect => cases hm.symm.trans hdirect
  | returned id o _ hc hw => exact ⟨by rw [Call.answered, hc], by rw [hw]; rfl⟩

/-! ## Answered callers -/

theorem Turn.answered (h : Turn plan c v a v') (hs : v.Stage) (hm : v.call.mode = .pooled)
    (ha : v.call.answered = true) : v'.call.answered = true := by
  cases h with
  | countDirect hc | countPooled i hc | abandon why hc => simp [Call.answered, hc] at ha
  | refuse hp => simp [Call.answered, (hs.of_blocked hp).2.1] at ha
  | giveBack n hp => simp [Call.answered, (hs.of_stuck hp).2.1] at ha
  | leaveDirect o hw hdirect => cases hm.symm.trans hdirect
  | answer => rfl
  | _ => exact ha

def Answered (g : Generator) : Prop := ∀ k ∈ g.calls, k.mode = .pooled ∧ k.answered = true

theorem step?_answered (hg : Answered g) (hs : Sound g) (hown : a.own?.isSome) (h : g.step? a = some g') :
    Answered g' := by
  obtain ⟨c, hc⟩ := Option.isSome_iff_exists.1 hown
  obtain ⟨k, r, hk, hr, k', ds, htouched, hturn⟩ := step?_acted h hc
  obtain ⟨hm, hanswered⟩ := hg k (List.mem_of_getElem? hk)
  intro l hl
  rw [htouched.calls] at hl
  rcases List.mem_or_eq_of_mem_set hl with hl | rfl
  · exact hg l hl
  · exact ⟨(congrArg Ticket.mode hturn.ticket).trans hm,
      hturn.answered (hs.stage c _ (view?_eq hk hr)) hm hanswered⟩

theorem Call.begun_of_answered (h : k.answered = true) : k.begun = true := by
  unfold Call.answered at h
  split at h
  next id hc => simp [Call.begun, hc]
  next => cases h

theorem Answered.outstanding_le (hg : Answered g) (hown : a.own?.isSome) (h : g.step? a = some g') :
    g'.outstanding ≤ g.outstanding := by
  have hcount := step?_outstanding h
  have hbegins : a.begins = false := by
    cases a with
    | count c =>
      obtain ⟨k, r, hk, -, hstep⟩ := callStep?_of_step? h (c := c) rfl
      have hbegun := Call.begun_of_answered (hg k (List.mem_of_getElem? hk)).2
      simp only [callStep?] at hstep
      split at hstep
      next hc => simp [Call.begun, hc] at hbegun
      next => cases hstep
    | _ => rfl
  rw [hbegins] at hcount
  simp only [Bool.toNat_false] at hcount
  omega

/-- Where nothing is counted any more the runs of all callers who have got a number have come to their end. -/
theorem Answered.finished (hg : Answered g) (hs : Sound g) (hzero : g.outstanding = 0) :
    ∀ k ∈ g.calls, k.work.finished = true := by
  intro k hk
  obtain ⟨c, hc⟩ := List.getElem?_of_mem hk
  obtain ⟨r, hr, hv⟩ := hs.tied.view? hc
  have hanswered := (hg k hk).2
  have hended : k.ended = true := hs.all_ended hzero hv (Call.begun_of_answered hanswered)
  unfold Call.answered at hanswered
  split at hanswered
  next id hcaller => simpa [Call.ended, Caller.rejected, hcaller] using hended
  next => cases hanswered

/-! ## Going on by itself -/

theorem own_of_spontaneous (ha : a.spontaneous = true) :
    (a.own?.isSome ∧ a.quiet = true) ∨ (∃ w, a = .look w) ∨ ∃ w, a = .shut w := by
  cases a with
  | start c possible =>
    obtain rfl : possible = true := ha
    exact .inl ⟨rfl, rfl⟩
  | look w => exact .inr (.inl ⟨w, rfl⟩)
  | shut w => exact .inr (.inr ⟨w, rfl⟩)
  | _ => first | exact .inl ⟨rfl, rfl⟩ | cases ha

theorem spontaneous_of_calm (h : a.calm = true) : a.spontaneous = true := by
  obtain ⟨hown, hquiet⟩ := Bool.and_eq_true_iff.1 h
  cases a with
  | start c possible =>
    cases possible with
    | true => rfl
    | false => cases hquiet
  | _ => first | rfl | cases hown

theorem quiet_of_spontaneous (ha : a.spontaneous = true) : a.quiet = true := by
  rcases own_of_spontaneous ha with ⟨-, hquiet⟩ | ⟨w, rfl⟩ | ⟨w, rfl⟩
  · exact hquiet
  · rfl
  · rfl

theorem lookAt_eq (g : Generator) (w : Nat) (wait : Wait) : ∃ parked phase, g.lookAt w wait =
    { g with woken := g.woken.erase w, parked, waits := g.waits.set w { wait with phase } } ∧
      (phase = .closing ∨ phase = .returned → g.outstanding = 0) := by
  unfold lookAt
  dsimp only
  split
  next hzero => exact ⟨_, _, rfl, fun _ => hzero⟩
  next => exact ⟨_, _, rfl, by simp⟩

theorem length_of_spontaneous (ha : a.spontaneous = true) (h : g.step? a = some g') :
    g'.calls.length = g.calls.length := by
  rcases own_of_spontaneous ha with ⟨hown, -⟩ | ⟨w, rfl⟩ | ⟨w, rfl⟩
  · obtain ⟨c, hc⟩ := Option.isSome_iff_exists.1 hown
    obtain ⟨k, r, -, -, k', ds, htouched, -⟩ := step?_acted h hc
    rw [htouched.calls, List.length_set]
  · cases step?_apart h rfl with
    | look w wait hw =>
      obtain ⟨parked, phase, hlook, -⟩ := g.lookAt_eq w wait
      rw [hlook]
  · cases step?_apart h rfl with
    | shut w closes pool hw hpool => rfl

/-- What stays as it is when all callers have got their numbers. -/
structure Steady (g g' : Generator) : Prop where
  answered : Answered g'
  length : g'.calls.length = g.calls.length
  queue : g.queue <+: g'.queue
  idle : g.outstanding = 0 → g'.outstanding = 0

theorem step?_steady (hg : Answered g) (hs : Sound g) (ha : a.spontaneous = true) (h : g.step? a = some g') :
    Steady g g' := by
  have hlength := length_of_spontaneous ha h
  have hqueue : g.queue <+: g'.queue := run_queue ((runFrom?_one step? g a).trans h)
  rcases own_of_spontaneous ha with ⟨hown, -⟩ | ⟨w, rfl⟩ | ⟨w, rfl⟩
  · refine ⟨step?_answered hg hs hown h, hlength, hqueue, fun hzero => ?_⟩
    have hle := hg.outstanding_le hown h
    have hcounted := (step?_sound hs h).counted
    omega
  · cases step?_apart h rfl with
    | look w wait hw =>
      obtain ⟨parked, phase, hlook, -⟩ := g.lookAt_eq w wait
      rw [hlook]
      exact ⟨hg, rfl, List.prefix_refl _, id⟩
  · cases step?_apart h rfl with
    | shut w closes pool hw hpool => exact ⟨hg, hlength, hqueue, id⟩

theorem own_of_unwaited (hwaits : g.waits = []) (ha : a.spontaneous = true) (h : g.step? a = some g') :
    a.own?.isSome ∧ g'.waits = [] := by
  rcases own_of_spontaneous ha with ⟨hown, -⟩ | ⟨w, rfl⟩ | ⟨w, rfl⟩
  · obtain ⟨c, hc⟩ := Option.isSome_iff_exists.1 hown
    obtain ⟨k, r, -, -, k', ds, htouched, -⟩ := step?_acted h hc
    exact ⟨hown, htouched.waits.trans hwaits⟩
  · cases step?_apart h rfl with
    | look w wait hw => simp [hwaits] at hw
  · cases step?_apart h rfl with
    | shut w closes pool hw => simp [hwaits] at hw

theorem step?_waiting {phase : WaitPhase} (hwaits : g.waits = [⟨true, phase⟩]) (ha : a.spontaneous = true)
    (h : g.step? a = some g') (hidle : phase = .closing ∨ phase = .returned → g.outstanding = 0) :
    ∃ phase', g'.waits = [⟨true, phase'⟩] ∧ (phase' = .closing ∨ phase' = .returned → g.outstanding = 0) := by
  -- What happens by itself is an action of a call, a look, or the closing of the pool.
  rcases own_of_spontaneous ha with ⟨hown, -⟩ | ⟨w, rfl⟩ | ⟨w, rfl⟩
  · obtain ⟨c, hc⟩ := Option.isSome_iff_exists.1 hown
    obtain ⟨k, r, -, -, k', ds, htouched, -⟩ := step?_acted h hc
    exact ⟨phase, htouched.waits.trans hwaits, hidle⟩
  · cases step?_apart h rfl with
    | look w wait hw =>
      obtain ⟨parked, phase', hlook, hzero⟩ := g.lookAt_eq w wait
      obtain ⟨rfl, rfl⟩ : w = 0 ∧ wait = ⟨true, phase⟩ := by
        rw [hwaits] at hw
        cases w <;> simp_all
      exact ⟨phase', by rw [hlook, hwaits]; rfl, hzero⟩
  · cases step?_apart h rfl with
    | shut w closes pool hw hpool =>
      obtain ⟨rfl, rfl, rfl⟩ : w = 0 ∧ closes = true ∧ phase = .closing := by
        rw [hwaits] at hw
        cases w <;> simp_all
      exact ⟨.returned, by rw [hwaits]; rfl, fun _ => hidle (.inl rfl)⟩

/-! ## Filed calls -/

/-- The request of the call with some number, as it stands when the call is made. -/
def filed (i : Nat) (r : Request) : Request := { r with queued := true, id := i + 1 }

/-- The first of some requests have been used for one pooled call each, in order. -/
structure Filed (g : Generator) (rs : List Request) : Prop where
  le : g.calls.length ≤ rs.length
  requests : g.requests = (rs.take g.calls.length).mapIdx filed
  tickets : g.tickets = (List.range g.calls.length).map fun i => ⟨i, .pooled, i + 1⟩
  nextId : g.nextId = g.calls.length + 1

theorem new_filed (plan : Plan) (concurrency : Int) (clock : Double) (rs : List Request) :
    Filed (new plan concurrency clock) rs :=
  ⟨Nat.zero_le _, by simp [new], rfl, rfl⟩

theorem Filed.length (hg : Filed g rs) : g.requests.length = g.calls.length := by
  rw [hg.requests, List.length_mapIdx, List.length_take, Nat.min_eq_left hg.le]

theorem Filed.append (hg : Filed g rs) (more : List Request) : Filed g (rs ++ more) where
  le := by
    have := hg.le
    rw [List.length_append]
    omega
  requests := by rw [List.take_append_of_le_length hg.le, hg.requests]
  tickets := hg.tickets
  nextId := hg.nextId

theorem Filed.call (hg : Filed g rs) (hk : g.calls[c]? = some k) :
    k.request = c ∧ k.mode = .pooled ∧ ∃ r, rs[c]? = some r ∧ g.requestOf? k = some (filed c r) := by
  have hlt : c < g.calls.length := (List.getElem?_eq_some_iff.1 hk).1
  have hticket := tickets_getElem? hk
  rw [hg.tickets, List.getElem?_map, List.getElem?_range hlt, Option.map_some, Option.some.injEq] at hticket
  have hrequest : c = k.request := congrArg Ticket.request hticket
  have hr := List.getElem?_eq_getElem (Nat.lt_of_lt_of_le hlt hg.le)
  refine ⟨hrequest.symm, (congrArg Ticket.mode hticket).symm, _, hr, ?_⟩
  rw [requestOf?, ← hrequest, hg.requests, List.getElem?_mapIdx, List.getElem?_take, if_pos hlt, hr]
  rfl

theorem step?_filed (hg : Filed g rs) (hquiet : a.quiet = true) (hrequest : ∀ q, a ≠ .request q)
    (hcall : ∀ m mode, a ≠ .call m mode) (h : g.step? a = some g') : Filed g' rs := by
  have htickets : g'.tickets = g.tickets := by
    rw [step?_tickets h]
    cases a with
    | call m mode => exact absurd rfl (hcall m mode)
    | _ => exact List.append_nil _
  have hlength : g'.calls.length = g.calls.length := by
    simpa [tickets] using congrArg List.length htickets
  obtain ⟨hrequests, hnext⟩ : g'.requests = g.requests ∧ g'.nextId = g.nextId := by
    cases step?_requests h with
    | same hdraws hsame hnext => exact ⟨hsame, hnext⟩
    | made q hq => exact absurd hq (hrequest q)
    | drawn m r hm => exact absurd hm (hcall m .pooled)
    | cancelled m hcuts => simp [hcuts.not_quiet] at hquiet
  exact ⟨hlength ▸ hg.le, by rw [hrequests, hlength, hg.requests], by rw [htickets, hlength, hg.tickets],
    by rw [hnext, hlength, hg.nextId]⟩

def submitted (g : Generator) (q : Request) : Generator :=
  { g with
    requests := g.requests ++ [{ q with id := g.nextId }]
    calls := g.calls ++ [{ request := g.requests.length, mode := .pooled, id := g.nextId }]
    nextId := g.nextId + 1 }

theorem run?_submit (g : Generator) (q : Request) :
    g.run? [.request q, .call g.requests.length .pooled] = some (g.submitted q) := by
  simp [run?, runFrom?, step?, submitted]

theorem submitted_length (g : Generator) (q : Request) : (g.submitted q).calls.length = g.calls.length + 1 :=
  List.length_append

theorem Open.submitted {q : Request} (hg : Open g) (ht : Tied g) (hq : q.cancelled = false) :
    Open (g.submitted q) := by
  have hrun : (g.step? (.request q)).bind (fun g₁ => g₁.run? [.call g.requests.length .pooled]) =
      some (g.submitted q) := run?_submit g q
  obtain ⟨g₁, hfirst, hrest⟩ := Option.bind_eq_some_iff.1 hrun
  have hsecond := (runFrom?_one step? g₁ _).symm.trans hrest
  have ht₁ := (step?_moves hfirst).tied ht
  have hclosed : g₁.pool.closed = false := by
    obtain rfl := Option.some.inj hfirst
    exact hg.pool
  have hg₁ : Open g₁ := ⟨hclosed, fun _ _ hv => step?_welcome hg ht (by simp [Action.quiet, hq]) hfirst hv⟩
  exact ⟨hg.pool, fun _ _ hv => step?_welcome hg₁ ht₁ rfl hsecond hv⟩

theorem Filed.submitted (hg : Filed g rs) (hr : rs[g.calls.length]? = some r) :
    Filed (g.submitted { r with queued := true }) rs where
  le := by
    rw [submitted_length]
    exact (List.getElem?_eq_some_iff.1 hr).1
  requests := by
    rw [submitted_length, List.take_add_one, hr, Option.toList_some, List.mapIdx_append, ← hg.requests]
    simp [Generator.submitted, filed, hg.nextId, Nat.min_eq_left hg.le]
  tickets := by
    rw [submitted_length, List.range_succ, List.map_append, ← hg.tickets]
    simp [Generator.tickets, Generator.submitted, Call.ticket, hg.length, hg.nextId]
  nextId := by
    rw [submitted_length, ← hg.nextId]
    rfl

/-! ## What comes out -/

theorem Filed.requests_of_calls (hg : Filed g rs) : g.calls.map Call.request = List.range g.requests.length := by
  have hmap := congrArg (List.map Ticket.request) hg.tickets
  rw [Generator.tickets, List.map_map, List.map_map] at hmap
  rw [hg.length]
  exact hmap.trans (List.map_id _)

theorem Filed.args_perm (hg : Filed g rs) (plan : Plan) :
    (g.calls.flatMap fun k => (g.askedOf? k).toList.flatMap fun r => [plan.args r.media r.destinations]).Perm
      ((rs.take g.calls.length).map fun r => plan.args r.media r.destinations) := by
  refine (flatMap_calls _ (.of_eq hg.requests_of_calls)).trans (.of_eq ?_)
  rw [← List.map_eq_flatMap, List.map_map, hg.requests]
  apply List.ext_getElem?
  intro i
  simp only [List.getElem?_map, List.getElem?_mapIdx, Option.map_map]
  rfl

theorem flatMap_range_mapIdx {α β : Type} (l : List α) (f : Nat → α → β) :
    ((List.range l.length).flatMap fun i => (l[i]?.map (f i)).toList) = l.mapIdx f := by
  induction l generalizing f with
  | nil => rfl
  | cons x rest ih =>
    rw [List.length_cons, List.range_succ_eq_map, List.flatMap_cons, List.flatMap_map, List.mapIdx_cons, ← ih]
    rfl

theorem result_congr {q : Request} (hsession : plan.session { q with id := 0 } = plan.session { r with id := 0 })
    (hchild : q.child = r.child) : plan.result q = plan.result r := by
  rw [Plan.result, Plan.result, plan.session_run q q.id, plan.session_run r r.id, ← plan.session_run q 0,
    ← plan.session_run r 0, hsession, hchild]

theorem result_asked (plan : Plan) (r : Request) : plan.result r.asked = plan.result r := result_congr rfl rfl

theorem result_filed (plan : Plan) (i : Nat) (r : Request) : plan.result (filed i r).asked = plan.result r :=
  result_congr rfl rfl

section
variable {concurrency : Int} {clock : Double} (h : (new plan concurrency clock).run? as = some g)
  (has : ∀ a ∈ as, a.quiet = true) (hg : Filed g rs)
include h has hg

/-- No encoder is started but for one of the requests, and for none of them more than once. -/
theorem Filed.launches_subperm :
    ((new plan concurrency clock).launches as).Subperm (rs.map fun r => plan.args r.media r.destinations) := by
  have hstarted := run_started (new_calm plan concurrency clock) has h
  have hnone : (new plan concurrency clock).started = [] := rfl
  rw [hnone, List.append_nil] at hstarted
  have hpart : g.started.Sublist
      (g.calls.flatMap fun k => (g.askedOf? k).toList.flatMap fun r => [plan.args r.media r.destinations]) := by
    refine List.Sublist.flatMap_right _ fun k hk => ?_
    rw [startedBy, run_plan h]
    split
    · exact .refl _
    · exact List.nil_sublist _
  exact hstarted.symm.subperm.trans
    (hpart.subperm.trans ((hg.args_perm plan).subperm.trans ((List.take_sublist _ _).map _).subperm))

theorem Filed.launches_perm (hlength : g.calls.length = rs.length) (hfinished : ∀ k ∈ g.calls, k.work.finished = true) :
    ((new plan concurrency clock).launches as).Perm (rs.map fun r => plan.args r.media r.destinations) := by
  have hargs := hg.args_perm plan
  rw [hlength, List.take_length] at hargs
  exact (launches_asked h has (.of_eq hg.requests_of_calls) hfinished).trans
    ((flatMap_calls _ (.of_eq hg.requests_of_calls)).symm.trans hargs)

theorem Filed.resultsOf (hk : g.calls[c]? = some k) (hfinished : k.work.finished = true) :
    ∃ r duration, rs[c]? = some r ∧ g.resultsOf c = [⟨c, c, plan.result r, duration⟩] := by
  obtain ⟨rfl, hm, r, hr, hfiled⟩ := hg.call hk
  have hv := view?_eq hk hfiled
  obtain ⟨o, ho, hresult⟩ := (run_calm has h).left hv hfinished
  obtain ⟨duration, hresults⟩ := (run_view_inv h hv).receipt.delivered o (by rw [ho]; rfl)
    (by simp [View.receives, viewOf, hm, filed, Request.asked])
  refine ⟨r, duration, hr, ?_⟩
  rw [run_plan h] at hresult
  have hresult : o.error? = plan.result (filed k.request r).asked := hresult
  rw [← result_filed plan k.request r, ← hresult]
  exact hresults

/-- When all calls have ended there is one result for each request on the queue, in some order. -/
theorem Filed.queue_perm (hlength : g.calls.length = rs.length) (hfinished : ∀ k ∈ g.calls, k.work.finished = true) :
    ∃ durations : Nat → Double, g.queue.Perm (rs.mapIdx fun i r => ⟨i, i, plan.result r, durations i⟩) := by
  refine ⟨fun i => ((g.resultsOf i).head?.map Delivery.duration).getD (.zero false), ?_⟩
  -- The queue is sorted by the calls that its entries are for. Each call has one entry.
  have hkeys : g.queue.Perm ((List.range g.calls.length).flatMap g.resultsOf) :=
    perm_flatMap_filter Delivery.call _ _ (run_calm has h).tied.queue
  refine hkeys.trans (.of_eq ?_)
  rw [hlength, ← flatMap_range_mapIdx]
  refine List.flatMap_congr fun c hc => ?_
  have hlt : c < g.calls.length := hlength ▸ List.mem_range.1 hc
  obtain ⟨r, duration, hr, hresults⟩ := hg.resultsOf h has (List.getElem?_eq_getElem hlt)
    (hfinished _ (List.getElem_mem hlt))
  simp [hresults, hr]

end

end Thumbnailer.Generator
