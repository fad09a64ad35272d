import Mathlib.Data.List.Perm.Basic
import Thumbnailer.Proofs.Generator.Delivery
import Thumbnailer.Proofs.Generator.Quiet

/-!
# Concurrency changes no outcome

`concurrency_invisible` says of any two quiet runs that are asked for the same that they put the same results on the
queue and start the same encoders, however many may run at a time, and that each result is the one of the request by
itself.
-/

namespace Thumbnailer

/-- The error of a request, or none, where the encoder does what these arguments make it do. -/
def Plan.expected (p : Plan) (behave : List String → Child) (r : Request) : Option Generator.CallError :=
  p.result { r with child := behave (p.args r.media r.destinations) }

/-- What somebody asks for, whatever the encoder does. -/
def Request.wish (r : Request) : Request := { r with id := 0, cancelled := false, child := {} }

namespace Generator

variable {g g' : Generator} {a : Action} {as : List Action} {c : Nat} {k : Call} {r : Request} {plan : Plan}

/-! ## Lists of calls -/

section Lists
variable {α β : Type}

theorem flatMap_range_getElem? (l : List α) (f : α → List β) :
    ((List.range l.length).flatMap fun i => l[i]?.toList.flatMap f) = l.flatMap f := by
  induction l with
  | nil => rfl
  | cons x rest ih =>
    rw [List.length_cons, List.range_succ_eq_map, List.flatMap_cons, List.flatMap_map]
    simp only [List.getElem?_cons_zero, Nat.succ_eq_add_one, List.getElem?_cons_succ, ih]
    simp

theorem perm_flatMap_filter (key : α → Nat) (n : Nat) (l : List α) (h : ∀ x ∈ l, key x < n) :
    l.Perm ((List.range n).flatMap fun i => l.filter fun x => key x = i) := by
  induction n generalizing l with
  | zero =>
    have hnil : l = [] := List.eq_nil_iff_forall_not_mem.2 fun x hx => Nat.not_lt_zero _ (h x hx)
    simp [hnil]
  -- The items with the last key are split off; the others have smaller keys.
  | succ n ih =>
    have hlow := ih (l.filter fun x => key x < n) (by simp)
    have hparts := List.filter_append_perm (fun x => decide (key x < n)) l
    rw [List.range_succ, List.flatMap_append, List.flatMap_singleton]
    refine hparts.symm.trans (List.Perm.append (hlow.trans (List.Perm.of_eq ?_)) (List.Perm.of_eq ?_))
    · refine List.flatMap_congr fun i hi => ?_
      rw [List.filter_filter]
      refine List.filter_congr fun x hx => ?_
      have := List.mem_range.1 hi
      rw [Bool.eq_iff_iff]
      simp only [Bool.and_eq_true, decide_eq_true_eq]
      omega
    · refine List.filter_congr fun x hx => ?_
      have := h x hx
      rw [Bool.eq_iff_iff]
      simp only [Bool.not_eq_true', decide_eq_false_iff_not, decide_eq_true_eq]
      omega

theorem flatMap_set_perm {l : List α} {i : Nat} {a b : α} {f : α → List β} {more : List β} (h : l[i]? = some a)
    (hb : f b = more ++ f a) : ((l.set i b).flatMap f).Perm (more ++ l.flatMap f) := by
  induction l generalizing i with
  | nil => simp at h
  | cons x rest ih =>
    cases i with
    | zero =>
      obtain rfl : x = a := by simpa using h
      simp [hb]
    | succ i =>
      have hrest := ih (by simpa using h)
      rw [List.set_cons_succ, List.flatMap_cons, List.flatMap_cons]
      exact (hrest.append_left (f x)).trans (List.perm_append_comm_assoc _ _ _)

theorem flatMap_if (p : α → Bool) (f : α → β) (l : List α) :
    (l.flatMap fun x => if p x then [f x] else []) = (l.filter p).map f := by
  induction l with
  | nil => rfl
  | cons x rest ih => cases hp : p x <;> simp [hp, ih]

end Lists

/-- What is asked for with a call. -/
def askedOf? (g : Generator) (k : Call) : Option Request := (g.requests.map Request.asked)[k.request]?

/-- Where each request is used for one call, it does not matter whether one goes through calls or requests. -/
theorem flatMap_calls {α : Type} (f : Request → List α)
    (h : (g.calls.map Call.request).Perm (List.range g.requests.length)) :
    (g.calls.flatMap fun k => (g.askedOf? k).toList.flatMap f).Perm ((g.requests.map Request.asked).flatMap f) := by
  have hflat := h.flatMap_right fun m => ((g.requests.map Request.asked)[m]?).toList.flatMap f
  have hlength : g.requests.length = (g.requests.map Request.asked).length := List.length_map _ |>.symm
  rw [List.flatMap_map, hlength] at hflat
  rwa [flatMap_range_getElem?] at hflat

theorem askedOf?_eq (hr : g.requestOf? k = some r) : g.askedOf? k = some r.asked := by
  rw [requestOf?] at hr
  rw [askedOf?, List.getElem?_map, hr, Option.map_some]

theorem askedOf?_append {more : List Request} (hlt : k.request < g.requests.length)
    (h : g'.requests.map Request.asked = g.requests.map Request.asked ++ more) : g'.askedOf? k = g.askedOf? k := by
  rw [askedOf?, askedOf?, h, List.getElem?_append_left (by simpa using hlt)]

/-! ## What has been started -/

/-- The arguments that the encoder of a call was started with, if it was. -/
def startedBy (g : Generator) (k : Call) : List (List String) :=
  if k.work.launched then (g.askedOf? k).toList.flatMap fun r => [g.plan.args r.media r.destinations] else []

def started (g : Generator) : List (List String) := g.calls.flatMap g.startedBy

theorem Turn.launched_eq (h : Turn plan c v a v') (ha : a ≠ .launch c) :
    v'.call.work.launched = v.call.work.launched := by
  cases h with
  | skip | fail | launch => exact absurd rfl ha
  | arm since hr hw => simp [hw, Work.launched]
  | exit since opened duration id stdout hw | deliver since duration o hw | keep since o hw | leaveDirect o hw
  | leavePooled o hw => simp [hw, Work.launched]
  | _ => rfl

theorem launchedWork_launched (g : Generator) (r : Request) (since : Double) (expired : Bool) :
    (g.launchedWork r since expired).launched = true := by
  unfold launchedWork
  split
  · rfl
  · split <;> rfl

theorem launch_started (hg : Calm g) (h : g.step? (.launch c) = some g') : g'.started.Perm
    ((g.events (.launch c)).filterMap Event.launch? ++ g.started) := by
  obtain ⟨k, r, hk, hr, -⟩ := step?_acted h (c := c) rfl
  obtain ⟨since, expired, hw, rfl, hevents⟩ := step?_launch h hk hr
  have hcalm := hg.works c _ (view?_eq hk hr)
  simp only [viewOf, hw, Work.Unhindered] at hcalm
  subst hcalm
  have hcalls : (g.setWork c (g.launchedWork r since false)).calls =
      g.calls.set c { k with work := g.launchedWork r since false } := modify_eq_set_of_getElem? hk _
  have hseen : (g.events (.launch c)).filterMap Event.launch? = [g.plan.args r.media r.destinations] := by
    rw [hevents, launchEvents_launch?, hg.requests r (List.mem_of_getElem? hr), if_neg (by simp), g.plan.session_args]
  have hbefore : g.startedBy k = [] := by
    rw [startedBy, hw]
    rfl
  have hsame : (g.setWork c (g.launchedWork r since false)).startedBy = g.startedBy := rfl
  have hafter : g.startedBy { k with work := g.launchedWork r since false } =
      [g.plan.args r.media r.destinations] := by
    have hasked : g.askedOf? { k with work := g.launchedWork r since false } = some r.asked := askedOf?_eq hr
    rw [startedBy, if_pos (g.launchedWork_launched r since false), hasked]
    rfl
  rw [started, hcalls, hseen, hsame]
  exact flatMap_set_perm hk (by rw [hbefore, hafter, List.append_nil])

theorem startedBy_congr (hplan : g'.plan = g.plan) (hasked : g'.askedOf? k = g.askedOf? k) :
    g'.startedBy k = g.startedBy k := by
  rw [startedBy, startedBy, hasked, hplan]

theorem step?_started (hg : Calm g) (ha : a.quiet = true) (h : g.step? a = some g') : g'.started.Perm
    ((g.events a).filterMap Event.launch? ++ g.started) := by
  -- Only a launch starts something, so every other action leaves the arguments that were used as they are.
  by_cases hlaunch : ∃ c, a = .launch c
  · obtain ⟨c, rfl⟩ := hlaunch
    exact launch_started hg h
  · have hne (c : Nat) : a ≠ .launch c := fun hc => hlaunch ⟨c, hc⟩
    have hplan := step?_plan h
    rw [events_launch? hne]
    cases step?_moves h with
    | own c k k' r ds hown hk hr htouched hturn =>
      have hasked (l : Call) : g'.askedOf? l = g.askedOf? l := by rw [askedOf?, askedOf?, htouched.requests]
      have hsame : g'.startedBy = g.startedBy := funext fun l => startedBy_congr hplan (hasked l)
      rw [started, started, hsame, htouched.calls]
      refine flatMap_set_perm hk ?_
      have hlaunched : k'.work.launched = k.work.launched := hturn.launched_eq (hne c)
      rw [startedBy, startedBy, hlaunched, askedOf?, askedOf?, htouched.request, List.nil_append]
    | cut request hown hcuts => simp [hcuts.not_quiet] at ha
    | aside hown haside =>
      obtain ⟨more, hmore⟩ := haside.requests
      have hold : g.calls.flatMap g'.startedBy = g.started := by
        refine List.flatMap_congr fun k hk => startedBy_congr hplan (askedOf?_append ?_ hmore)
        obtain ⟨c, hc⟩ := List.getElem?_of_mem hk
        exact hg.tied.asked c k hc
      rw [List.nil_append]
      refine List.Perm.of_eq ?_
      rcases haside.calls with hcalls | ⟨k, hcalls, -, -, hw, -⟩
      · rw [started, hcalls, hold]
      · rw [started, hcalls, List.flatMap_append, hold]
        simp [startedBy, hw, Work.launched]

theorem run_started (hg : Calm g) (has : ∀ a ∈ as, a.quiet = true) (h : g.run? as = some g') :
    g'.started.Perm (g.launches as ++ g.started) := by
  induction as generalizing g with
  | nil =>
    obtain rfl := Option.some.inj h
    exact .refl _
  | cons a rest ih =>
    obtain ⟨g₁, hfirst, hrest⟩ := Option.bind_eq_some_iff.1 h
    have hquiet := has a (by simp)
    have hlater := ih (step?_calm hg hquiet hfirst) (fun b hb => has b (List.mem_cons_of_mem a hb)) hrest
    rw [launches_cons hfirst, List.append_assoc]
    exact hlater.trans (((step?_started hg hquiet hfirst).append_left _).trans (List.perm_append_comm_assoc _ _ _))

/-! ## What comes out -/

/-- A result with what was asked for. -/
def receiptOf (g : Generator) (d : Delivery) : List (Request × Option CallError) :=
  g.requests[d.request]?.toList.map fun r => (r.wish, d.error)

def received (g : Generator) : List (Request × Option CallError) := g.queue.flatMap g.receiptOf

/-- These requests are made and used for one call each, and all calls end undisturbed. What an encoder does depends
on its arguments only. -/
structure Completes (plan : Plan) (behave : List String → Child) (mode : Mode) (rs : List Request)
    (as : List Action) (g : Generator) : Prop where
  quiet : ∀ a ∈ as, a.quiet = true
  wishes : (g.requests.map Request.wish).Perm rs
  behaved : ∀ r ∈ g.requests, r.child = behave (plan.args r.media r.destinations)
  once : (g.calls.map Call.request).Perm (List.range g.requests.length)
  mode : ∀ k ∈ g.calls, k.mode = mode
  finished : ∀ k ∈ g.calls, k.work.finished = true

section Completes
variable {behave : List String → Child} {mode : Mode} {rs : List Request} {concurrency : Int} {clock : Double}

theorem launched_of_finished {work : Work} (h : work.finished = true) : work.launched = true := by
  cases work with
  | left o => rfl
  | _ => cases h

/-- A call that has ended has put its result on the queue if there is one, and nothing else. -/
theorem resultsOf_received (h : (new plan concurrency clock).run? as = some g) (has : ∀ a ∈ as, a.quiet = true)
    (hk : g.calls[c]? = some k) (hm : k.mode = .pooled) (hfinished : k.work.finished = true) :
    (g.resultsOf c).flatMap g.receiptOf = (g.askedOf? k).toList.flatMap fun r =>
      if r.queued then [(r.wish, plan.result r)] else [] := by
  have hcalm := run_calm has h
  obtain ⟨r, hr, hv⟩ := hcalm.tied.view? hk
  obtain ⟨o, ho, hresult⟩ := hcalm.left hv hfinished
  have hreceipt := (run_view_inv h hv).receipt
  have hreceives : (g.viewOf c k r).receives = r.queued := by
    simp [View.receives, viewOf, hm, Request.asked]
  rw [run_plan h] at hresult
  rw [askedOf?_eq hr, Option.toList_some, List.flatMap_singleton]
  show (g.viewOf c k r).results.flatMap g.receiptOf = _
  -- A call has a receipt exactly if its request asks for one.
  cases hq : r.queued with
  | false =>
    rw [hreceipt.unqueued (hreceives.trans hq)]
    simp [Request.asked, hq]
  | true =>
    obtain ⟨duration, hresults⟩ := hreceipt.delivered o (by rw [ho]; rfl) (hreceives.trans hq)
    rw [hresults, List.flatMap_singleton, receiptOf]
    have hfound : g.requests[k.request]? = some r := hr
    simp only [viewOf, hfound, Option.toList_some, List.map_cons, List.map_nil]
    have hq' : r.asked.queued = true := hq
    rw [hq', if_pos rfl, hresult]
    rfl

theorem received_asked (h : (new plan concurrency clock).run? as = some g)
    (hg : Completes plan behave .pooled rs as g) : g.received.Perm ((g.requests.map Request.asked).flatMap fun r =>
      if r.queued then [(r.wish, plan.result r)] else []) := by
  have hkeys : g.queue.Perm ((List.range g.calls.length).flatMap g.resultsOf) :=
    perm_flatMap_filter Delivery.call _ _ (run_calm hg.quiet h).tied.queue
  refine (hkeys.flatMap_right g.receiptOf).trans ?_
  rw [List.flatMap_assoc]
  refine (List.Perm.of_eq ?_).trans (flatMap_calls _ hg.once)
  rw [← flatMap_range_getElem? g.calls]
  refine List.flatMap_congr fun c hc => ?_
  have hk := List.getElem?_eq_getElem (List.mem_range.1 hc)
  have hmem := List.mem_of_getElem? hk
  rw [hk, Option.toList_some, List.flatMap_singleton]
  exact resultsOf_received h hg.quiet hk (hg.mode _ hmem) (hg.finished _ hmem)

theorem launches_asked (h : (new plan concurrency clock).run? as = some g) (has : ∀ a ∈ as, a.quiet = true)
    (honce : (g.calls.map Call.request).Perm (List.range g.requests.length))
    (hfinished : ∀ k ∈ g.calls, k.work.finished = true) : ((new plan concurrency clock).launches as).Perm
      ((g.requests.map Request.asked).flatMap fun r => [plan.args r.media r.destinations]) := by
  have hstarted := run_started (new_calm plan concurrency clock) has h
  have hnone : (new plan concurrency clock).started = [] := rfl
  rw [hnone, List.append_nil] at hstarted
  refine hstarted.symm.trans (.trans (List.Perm.of_eq ?_) (flatMap_calls _ honce))
  refine List.flatMap_congr fun k hk => ?_
  rw [startedBy, if_pos (launched_of_finished (hfinished k hk)), run_plan h]
  rfl

theorem Completes.result_eq (hg : Completes plan behave mode rs as g) (hr : r ∈ g.requests) :
    plan.result r.asked = plan.expected behave r.wish := by
  have hchild : behave (plan.args r.wish.media r.wish.destinations) = r.child := (hg.behaved r hr).symm
  rw [Plan.expected, hchild]
  rfl

theorem completes_received (h : (new plan concurrency clock).run? as = some g)
    (hg : Completes plan behave .pooled rs as g) :
    g.received.Perm ((rs.filter Request.queued).map fun r => (r, plan.expected behave r)) := by
  have hresults : ((g.requests.map Request.asked).flatMap fun r =>
      if r.queued then [(r.wish, plan.result r)] else []) =
        (g.requests.map Request.wish).flatMap fun r => if r.queued then [(r, plan.expected behave r)] else [] := by
    rw [List.flatMap_map, List.flatMap_map]
    refine List.flatMap_congr fun r hr => ?_
    rw [hg.result_eq hr]
    rfl
  have hwishes := (received_asked h hg).trans (hresults ▸ hg.wishes.flatMap_right _)
  rwa [flatMap_if] at hwishes

theorem completes_launches (h : (new plan concurrency clock).run? as = some g)
    (hg : Completes plan behave mode rs as g) :
    ((new plan concurrency clock).launches as).Perm (rs.map fun r => plan.args r.media r.destinations) := by
  refine (launches_asked h hg.quiet hg.once hg.finished).trans (.trans (List.Perm.of_eq ?_) (hg.wishes.map _))
  rw [← List.map_eq_flatMap, List.map_map, List.map_map]
  rfl

/-! ## A request by itself -/

/-- The only request of a direct call ends with the error that is expected, or none. -/
theorem completes_direct (h : (new plan concurrency clock).run? as = some g)
    (hg : Completes plan behave .direct [r] as g) :
    g.calls.map Call.caller = [.finished (plan.expected behave r)] := by
  obtain ⟨q, hrequests, rfl⟩ := List.map_eq_singleton_iff.1 (List.perm_singleton.1 hg.wishes)
  have honce := hg.once
  rw [hrequests] at honce
  obtain ⟨k, hcalls, hrequest⟩ := List.map_eq_singleton_iff.1 (List.perm_singleton.1 honce)
  have hk : g.calls[0]? = some k := by
    rw [hcalls]
    rfl
  have hmem : k ∈ g.calls := List.mem_of_getElem? hk
  have hr : g.requestOf? k = some q := by
    rw [requestOf?, hrequest, hrequests]
    rfl
  have hv := view?_eq hk hr
  obtain ⟨o, ho, hresult⟩ := (run_calm hg.quiet h).left hv (hg.finished k hmem)
  have hcaller : k.caller = .finished o.error? :=
    (run_view_inv h hv).stage.of_left (hg.mode k hmem) ho
  have hasked : (g.viewOf 0 k q).asked = q.asked := rfl
  have hplan : g.plan = plan := run_plan h
  rw [hcalls, List.map_singleton, hcaller, hresult, hplan, hasked,
    hg.result_eq (hrequests ▸ List.mem_singleton_self q)]

/-- The encoder runs after an attempt to start it. -/
def starts (plan : Plan) (q : Request) : Bool :=
  match ((plan.session q).start q.child).result with
  | .ok (.running _) => true
  | _ => false

/-- All that happens where one request is made and a direct call with it comes to its end. -/
def directCall (plan : Plan) (q : Request) : List Action :=
  [.request q, .call 0 .direct, .count 0, .arm 0, .launch 0] ++
    (if starts plan q then [.exit 0, .deliver 0, .leave 0] else [.deliver 0, .leave 0])

/-- The generator with that call, whose run has come so far. -/
def withCall (plan : Plan) (concurrency : Int) (clock : Double) (q : Request) (work : Work) : Generator :=
  { new plan concurrency clock with
    requests := [q], calls := [{ request := 0, mode := .direct, caller := .inside, work }], outstanding := 1 }

theorem directCall_run (plan : Plan) (concurrency : Int) (clock : Double) {q : Request} (hq : q.cancelled = false) :
    ∃ g, (new plan concurrency clock).run? (directCall plan q) = some g ∧ g.requests = [q] ∧
      g.calls.map (fun k => (k.request, k.mode, k.work.finished)) = [(0, .direct, true)] := by
  have hlaunched : (new plan concurrency clock).run? [.request q, .call 0 .direct, .count 0, .arm 0, .launch 0] =
      some (withCall plan concurrency clock q
        ((withCall plan concurrency clock q (.armed clock false)).launchedWork q clock false)) :=
    congrArg some (launchRun_eq (withCall plan concurrency clock q (.armed clock false)) 0 q clock false)
  have hplan : (withCall plan concurrency clock q (.armed clock false)).plan = plan := rfl
  unfold directCall starts
  rw [run?_append, hlaunched, Option.bind_some, launchedWork, hq, if_neg (by decide), hplan]
  -- The encoder runs and ends by itself, or it was not started and there is a result already.
  cases ((plan.session q).start q.child).result with
  | error reason => exact ⟨_, rfl, rfl, rfl⟩
  | ok started =>
    cases started with
    | running stdout => exact ⟨_, rfl, rfl, rfl⟩
    | failed o => exact ⟨_, rfl, rfl, rfl⟩

theorem directCall_quiet {q : Request} (hq : q.cancelled = false) : ∀ a ∈ directCall plan q, a.quiet = true := by
  unfold directCall
  split <;> simp [Action.quiet, hq]

theorem completes_of_calls (numbers : List Nat) (has : ∀ a ∈ as, a.quiet = true)
    (hwishes : (g.requests.map Request.wish).Perm rs)
    (hbehaved : ∀ r ∈ g.requests, r.child = behave (plan.args r.media r.destinations))
    (hcalls : g.calls.map (fun k => (k.request, k.mode, k.work.finished)) = numbers.map fun m => (m, mode, true))
    (hnumbers : numbers.Perm (List.range g.requests.length)) : Completes plan behave mode rs as g := by
  have hcall : ∀ k ∈ g.calls, k.mode = mode ∧ k.work.finished = true := by
    intro k hk
    have hmem := List.mem_map_of_mem (f := fun k => (k.request, k.mode, k.work.finished)) hk
    rw [hcalls] at hmem
    obtain ⟨m, -, heq⟩ := List.mem_map.1 hmem
    simp only [Prod.mk.injEq] at heq
    exact ⟨heq.2.1.symm, heq.2.2.symm⟩
  have honce : g.calls.map Call.request = numbers := by
    have hfirst := congrArg (List.map Prod.fst) hcalls
    simpa [List.map_map, Function.comp_def] using hfirst
  exact ⟨has, hwishes, hbehaved, honce ▸ hnumbers, fun k hk => (hcall k hk).1, fun k hk => (hcall k hk).2⟩

/-- Wherever a request is the only one and used for a direct call, the call can come to its end. It ends with this
error or none, and starts the encoder once. -/
structure Alone (plan : Plan) (behave : List String → Child) (r : Request) (error : Option CallError) : Prop where
  possible : ∀ concurrency clock, ∃ as g, (new plan concurrency clock).run? as = some g ∧
    Completes plan behave .direct [r] as g
  result : ∀ concurrency clock as g, (new plan concurrency clock).run? as = some g →
    Completes plan behave .direct [r] as g → g.calls.map Call.caller = [.finished error] ∧
      (new plan concurrency clock).launches as = [plan.args r.media r.destinations]

theorem alone_of_requested {q : Request} (hchild : q.child = behave (plan.args q.media q.destinations))
    (hcancelled : q.cancelled = false) : Alone plan behave q.wish (plan.expected behave q.wish) where
  possible concurrency clock := by
    obtain ⟨g, h, hrequests, hcalls⟩ := directCall_run plan concurrency clock hcancelled
    refine ⟨directCall plan q, g, h, completes_of_calls [0] (directCall_quiet hcancelled) ?_ ?_ hcalls ?_⟩
    · rw [hrequests]
      rfl
    · rw [hrequests]
      simpa using hchild
    · rw [hrequests]
      rfl
  result concurrency clock as g h hg :=
    ⟨completes_direct h hg, List.perm_singleton.1 (completes_launches h hg)⟩

/-! ## Two runs -/

/-- However many encoders may run at a time and in whatever order everything happens, the same results are put on
the queue and the same encoders are started, and each result is the one of the request by itself. -/
theorem concurrency_invisible {concurrency' : Int} {clock' : Double} {as' : List Action}
    (h : (new plan concurrency clock).run? as = some g) (h' : (new plan concurrency' clock').run? as' = some g')
    (hg : Completes plan behave .pooled rs as g) (hg' : Completes plan behave .pooled rs as' g') :
    g.received.Perm g'.received ∧
      ((new plan concurrency clock).launches as).Perm ((new plan concurrency' clock').launches as') ∧
      g.received.Perm ((rs.filter Request.queued).map fun r => (r, plan.expected behave r)) ∧
      ∀ r ∈ rs, Alone plan behave r (plan.expected behave r) := by
  have hreceived := completes_received h hg
  refine ⟨hreceived.trans (completes_received h' hg').symm,
    (completes_launches h hg).trans (completes_launches h' hg').symm, hreceived, fun r hr => ?_⟩
  obtain ⟨q, hq, rfl⟩ := List.mem_map.1 (hg.wishes.mem_iff.2 hr)
  exact alone_of_requested (hg.behaved q hq) ((run_calm hg.quiet h).requests q hq)

end Completes

def failsOnSecond (args : List String) : Child := if "b.mp4" ∈ args then { code := 1 } else {}

def requestFor (media : String) : Request := { media, queued := true, child := failsOnSecond (barePlan.args media []) }

/-- Two calls, one after the other. -/
def inTurn : List Action :=
  [.request (requestFor "a.mp4"), .request (requestFor "b.mp4")] ++ [0, 1].flatMap fun c =>
    [.call c .pooled, .count c, .enter c, .start c true, .answer c, .arm c, .launch c, .exit c, .deliver c, .leave c,
      .release c]

/-- The same at the same time, once two encoders may run. -/
def together : List Action :=
  [.request (requestFor "b.mp4"), .request (requestFor "a.mp4"), .call 0 .pooled, .count 0, .enter 0, .call 1 .pooled,
    .count 1, .enter 1, .tune 2, .enter 1, .start 1 true, .start 0 true, .arm 1, .arm 0, .launch 0, .launch 1,
    .exit 1, .exit 0, .deliver 0, .deliver 1, .leave 1, .leave 0, .release 0, .release 1]

theorem completes_two (as : List Action) (first second : String) (has : ∀ a ∈ as, a.quiet = true)
    (hseen : ((new barePlan 1).run? as).map (fun g =>
      (g.requests.map Request.asked, g.calls.map fun k => (k.request, k.mode, k.work.finished))) =
        some ([requestFor first, requestFor second], [(0, .pooled, true), (1, .pooled, true)])) :
    ∃ g, (new barePlan 1).run? as = some g ∧ Completes barePlan failsOnSecond .pooled
      [(requestFor first).wish, (requestFor second).wish] as g := by
  obtain ⟨g, h, hfields⟩ := Option.map_eq_some_iff.1 hseen
  obtain ⟨hasked, hcalls⟩ := Prod.mk.inj hfields
  refine ⟨g, h, completes_of_calls [0, 1] has (.of_eq ?_) (fun r hr => ?_) hcalls ?_⟩
  · have hwishes := congrArg (List.map Request.wish) hasked
    rwa [List.map_map] at hwishes
  · have hmem := List.mem_map_of_mem (f := Request.asked) hr
    rw [hasked] at hmem
    have hchild : r.asked.child = failsOnSecond (barePlan.args r.asked.media r.asked.destinations) := by
      rcases List.mem_pair.1 hmem with heq | heq <;> rw [heq] <;> rfl
    exact hchild
  · have hlength := congrArg List.length hasked
    rw [List.length_map] at hlength
    rw [hlength]
    exact .refl _

theorem concurrency_invisible_two : ∃ g g' rs, (new barePlan 1).run? inTurn = some g ∧
    (new barePlan 1).run? together = some g' ∧ Completes barePlan failsOnSecond .pooled rs inTurn g ∧
    Completes barePlan failsOnSecond .pooled rs together g' ∧ rs.length = 2 ∧ g.received.Perm g'.received ∧
    ((new barePlan 1).launches inTurn).Perm ((new barePlan 1).launches together) ∧
    g.received.Perm ((rs.filter Request.queued).map fun r => (r, barePlan.expected failsOnSecond r)) ∧
    ∀ r ∈ rs, Alone barePlan failsOnSecond r (barePlan.expected failsOnSecond r) := by
  obtain ⟨g, h, hg⟩ := completes_two inTurn "a.mp4" "b.mp4" (by decide) (by decide +kernel)
  obtain ⟨g', h', hg'⟩ := completes_two together "b.mp4" "a.mp4" (by decide) (by decide +kernel)
  have hswap : Completes barePlan failsOnSecond .pooled [(requestFor "a.mp4").wish, (requestFor "b.mp4").wish]
      together g' := { hg' with wishes := hg'.wishes.trans (.swap _ _ _) }
  exact ⟨g, g', _, h, h', hg, hswap, rfl, concurrency_invisible h h' hg hswap⟩

end Generator

end Thumbnailer
