import Thumbnailer.Proofs.Generator.Lives
import Thumbnailer.Proofs.Pool.Slots

/-!
# Turns of calls

An action of a call's own is a turn of that call, and touches nothing else of the generator but what the call
shares with others: the pool, the queue and the count.
-/

namespace Thumbnailer.Generator

variable {g g' : Generator} {a : Action} {c : Nat} {k : Call} {r : Request}

/-! ## Looking at calls -/

def resultsOf (g : Generator) (c : Nat) : List Delivery := g.queue.filter fun d => d.call = c

def viewOf (g : Generator) (c : Nat) (k : Call) (r : Request) : View where
  call := k
  asked := r.asked
  phase := g.phaseOf? k
  results := g.resultsOf c

def view? (g : Generator) (c : Nat) : Option View :=
  g.calls[c]?.bind fun k => (g.requestOf? k).map fun r => g.viewOf c k r

theorem view?_eq (hk : g.calls[c]? = some k) (hr : g.requestOf? k = some r) :
    g.view? c = some (g.viewOf c k r) := by
  simp [view?, hk, hr]

theorem view?_eq_some {v : View} (h : g.view? c = some v) :
    ∃ r, g.calls[c]? = some v.call ∧ g.requestOf? v.call = some r ∧ v = g.viewOf c v.call r := by
  simp only [view?, Option.bind_eq_some_iff, Option.map_eq_some_iff] at h
  obtain ⟨k, hk, r, hr, rfl⟩ := h
  exact ⟨r, hk, hr, rfl⟩

/-! ## Actions of a call's own -/

def Action.own? : Action → Option Nat
  | .expire _ => none
  | a => a.call?

/-- Nothing has changed but one call, its task, its results on the queue and the count, and those who wait are
woken when the count has come down to zero. -/
structure Touched (g : Generator) (a : Action) (c : Nat) (k k' : Call) (ds : List Delivery) (g' : Generator) :
    Prop where
  calls : g'.calls = g.calls.set c k'
  request : k'.request = k.request
  requests : g'.requests = g.requests
  nextId : g'.nextId = g.nextId
  plan : g'.plan = g.plan
  pool : Pool.Only g.pool g'.pool k.task k'.task
  queue : g'.queue = g.queue ++ ds
  own : ∀ d ∈ ds, d.call = c
  outstanding : g'.outstanding = g.outstanding + a.begins.toNat - a.ends.toNat
  waits : g'.waits = g.waits
  woken : g'.parked = g.parked ∧ g'.woken = g.woken ∧ (a.ends = true → g'.outstanding ≠ 0) ∨
    g'.parked = [] ∧ g'.woken = g.woken ++ g.parked

/-- An action of its own has taken a call with a request a step further. -/
def Acted (g : Generator) (a : Action) (c : Nat) (k : Call) (r : Request) (g' : Generator) : Prop :=
  ∃ k' ds, Touched g a c k k' ds g' ∧ Turn g.plan c (g.viewOf c k r) a (g'.viewOf c k' r)

theorem modifyCall_modifyCall (f f' : Call → Call) :
    (g.modifyCall c f).modifyCall c f' = g.modifyCall c (f' ∘ f) := by
  simp [modifyCall, List.modify_modify_eq]

theorem resultsOf_append {ds : List Delivery} (h : g'.queue = g.queue ++ ds) (hds : ∀ d ∈ ds, d.call = c) :
    g'.resultsOf c = g.resultsOf c ++ ds := by
  rw [resultsOf, h, List.filter_append, resultsOf]
  congr 1
  exact List.filter_eq_self.2 (by simpa using hds)

theorem touched {g : Generator} {pool : Pool} {outstanding : Int} {parked woken : List Nat}
    {queue ds : List Delivery} {clock : Double} {f : Call → Call} (hk : g.calls[c]? = some k)
    (hrequest : (f k).request = k.request) (hpool : Pool.Only g.pool pool k.task (f k).task)
    (hqueue : queue = g.queue ++ ds) (hown : ∀ d ∈ ds, d.call = c)
    (houtstanding : outstanding = g.outstanding + a.begins.toNat - a.ends.toNat)
    (hwoken : parked = g.parked ∧ woken = g.woken ∧ (a.ends = true → outstanding ≠ 0) ∨
      parked = [] ∧ woken = g.woken ++ g.parked) :
    Touched g a c k (f k) ds ({ g with pool, outstanding, parked, woken, queue, clock }.modifyCall c f) where
  calls := modify_eq_set_of_getElem? hk f
  request := hrequest
  requests := rfl
  nextId := rfl
  plan := rfl
  pool := hpool
  queue := hqueue
  own := hown
  outstanding := houtstanding
  waits := rfl
  woken := hwoken

theorem touched_pool {p : Pool} {f : Call → Call} (hk : g.calls[c]? = some k)
    (hrequest : (f k).request = k.request) (hpool : Pool.Only g.pool p k.task (f k).task)
    (hbegins : a.begins = false) (hends : a.ends = false) :
    Touched g a c k (f k) [] ({ g with pool := p }.modifyCall c f) :=
  touched hk hrequest hpool (List.append_nil _).symm (by simp) (by simp [hbegins, hends])
    (.inl ⟨rfl, rfl, by simp [hends]⟩)

theorem acted_modifyCall (f : Call → Call) (clock : Double) (hk : g.calls[c]? = some k)
    (htask : (f k).task = k.task) (hrequest : (f k).request = k.request) (hbegins : a.begins = false)
    (hends : a.ends = false) (hturn : Turn g.plan c (g.viewOf c k r) a (g.viewOf c (f k) r)) :
    Acted g a c k r ({ g with clock }.modifyCall c f) :=
  ⟨f k, [], touched hk hrequest (htask ▸ .refl g.pool k.task) (List.append_nil _).symm (by simp)
    (by simp [hbegins, hends]) (.inl ⟨rfl, rfl, by simp [hends]⟩), hturn⟩

theorem acted_put {d : Delivery} (f : Call → Call) (hk : g.calls[c]? = some k) (hd : d.call = c)
    (htask : (f k).task = k.task) (hrequest : (f k).request = k.request) (hbegins : a.begins = false)
    (hends : a.ends = false)
    (hturn : Turn g.plan c (g.viewOf c k r) a { g.viewOf c (f k) r with results := g.resultsOf c ++ [d] }) :
    Acted g a c k r { g.modifyCall c f with queue := g.queue ++ [d] } := by
  have hown : ∀ d' ∈ [d], d'.call = c := by simpa using hd
  refine ⟨f k, [d], touched hk hrequest (htask ▸ .refl g.pool k.task) rfl hown
    (by simp [modifyCall, hbegins, hends])
    (.inl ⟨rfl, rfl, by simp [hends]⟩), ?_⟩
  have hresults : ({ g.modifyCall c f with queue := g.queue ++ [d] } : Generator).resultsOf c =
      g.resultsOf c ++ [d] := resultsOf_append rfl hown
  rwa [← hresults] at hturn

theorem acted_countDown (f : Call → Call) (hk : g.calls[c]? = some k) (htask : (f k).task = k.task)
    (hrequest : (f k).request = k.request) (hbegins : a.begins = false) (hends : a.ends = true)
    (hturn : Turn g.plan c (g.viewOf c k r) a (g.viewOf c (f k) r)) :
    Acted g a c k r (g.countDown.modifyCall c f) := by
  have hpool : Pool.Only g.pool g.pool k.task (f k).task := htask ▸ .refl g.pool k.task
  have houtstanding : g.outstanding - 1 = g.outstanding + a.begins.toNat - a.ends.toNat := by
    simp [hbegins, hends]
  unfold countDown
  simp only
  split
  · exact ⟨f k, [], touched hk hrequest hpool (List.append_nil _).symm (by simp) houtstanding
      (.inr ⟨rfl, rfl⟩), hturn⟩
  next hne =>
    exact ⟨f k, [], touched hk hrequest hpool (List.append_nil _).symm (by simp) houtstanding
      (.inl ⟨rfl, rfl, fun _ => hne⟩), hturn⟩

theorem count_direct (hk : g.calls[c]? = some k) (hc : k.caller = .calling) (hm : k.mode = .direct) :
    Acted g (.count c) c k r ({ g with outstanding := g.outstanding + 1 }.setCaller c .inside) := by
  refine ⟨_, [], touched (f := fun k => { k with caller := .inside }) hk rfl (.refl g.pool k.task)
    (List.append_nil _).symm (by simp) ?_ (.inl ⟨rfl, rfl, nofun⟩), .countDirect hc hm⟩
  simp [Action.begins, Action.ends]

theorem count_pooled {pool : Pool} (hk : g.calls[c]? = some k) (hc : k.caller = .calling) (hm : k.mode = .pooled)
    (hpool : g.pool.step? (.submit none) = some pool) :
    Acted g (.count c) c k r
      (({ { g with outstanding := g.outstanding + 1 }.setCaller c .inside with pool }).modifyCall c fun k =>
        { k with task := some g.pool.tasks.length }) := by
  obtain rfl := Option.some.inj hpool
  have hmodify := modifyCall_modifyCall (c := c)
    (g := { g with
      outstanding := g.outstanding + 1, pool := { g.pool with tasks := g.pool.tasks ++ [{ error := none }] } })
    (fun k => { k with caller := .inside }) (fun k => { k with task := some g.pool.tasks.length })
  rw [modifyCall] at hmodify
  rw [setCaller, modifyCall]
  refine hmodify ▸ ⟨_, [], touched hk rfl (g.pool.submit_only none k.task) (List.append_nil _).symm (by simp)
      (by simp [Action.begins, Action.ends]) (.inl ⟨rfl, rfl, nofun⟩), ?_⟩
  have hphase := Pool.phase?_submit g.pool { error := none } g.pool.tasks.length
  rw [if_pos rfl] at hphase
  have hturn : Turn g.plan c (g.viewOf c k r) (.count c) _ := .countPooled g.pool.tasks.length hc hm
  rwa [← hphase] at hturn

theorem count_acted (hk : g.calls[c]? = some k) (h : g.callStep? c k r (.count c) = some g') :
    Acted g (.count c) c k r g' := by
  unfold callStep? at h
  dsimp only at h
  split at h
  next hc =>
    split at h
    next hm =>
      obtain rfl := Option.some.inj h
      exact count_direct hk hc hm
    next hm =>
      obtain ⟨pool, hpool, rfl⟩ := Option.map_eq_some_iff.1 h
      exact count_pooled hk hc hm hpool
  next => cases h

theorem onPool?_eq_some {action : Nat → Pool.Action} (h : g.onPool? k action = some g') :
    ∃ i p, k.task = some i ∧ g.pool.step? (action i) = some p ∧ g' = { g with pool := p } := by
  simp only [onPool?, Option.map_eq_some_iff, Option.bind_eq_some_iff] at h
  obtain ⟨p, ⟨i, hi, hp⟩, rfl⟩ := h
  exact ⟨i, p, hi, hp, rfl⟩

theorem phaseOf?_eq {i : Nat} (h : k.task = some i) : g.phaseOf? k = g.pool.phase? i := by
  simp [phaseOf?, h]

theorem acted_pool {p : Pool} {i : Nat} {old new : Pool.Phase} (f : Call → Call) (hk : g.calls[c]? = some k)
    (hi : k.task = some i) (hleads : Pool.Leads g.pool p) (hmoved : Pool.Moved g.pool p i old new)
    (htask : (f k).task = k.task)
    (hrequest : (f k).request = k.request) (hbegins : a.begins = false) (hends : a.ends = false)
    (hturn : (g.viewOf c k r).phase = some old →
      Turn g.plan c (g.viewOf c k r) a ⟨f k, r.asked, some new, g.resultsOf c⟩) :
    Acted g a c k r ({ g with pool := p }.modifyCall c f) := by
  refine ⟨f k, [], touched_pool hk hrequest ?_ hbegins hends, ?_⟩
  · rw [htask, hi]
    exact hmoved.only hleads
  · have hphase : ({ g with pool := p }.modifyCall c f).phaseOf? (f k) = some new :=
      (phaseOf?_eq (htask.trans hi)).trans hmoved.after
    rw [← hphase] at hturn
    exact hturn ((phaseOf?_eq hi).trans hmoved.before)

theorem acted_onPool {p : Pool} {i : Nat} {old new : Pool.Phase} (hk : g.calls[c]? = some k)
    (hi : k.task = some i) (hleads : Pool.Leads g.pool p) (hmoved : Pool.Moved g.pool p i old new)
    (hbegins : a.begins = false)
    (hends : a.ends = false)
    (hturn : (g.viewOf c k r).phase = some old →
      Turn g.plan c (g.viewOf c k r) a ((g.viewOf c k r).setPhase new)) :
    Acted g a c k r { g with pool := p } := by
  have h := acted_pool id hk hi hleads hmoved rfl rfl hbegins hends hturn
  rwa [modifyCall, List.modify_id] at h

theorem enter_acted (hk : g.calls[c]? = some k) (h : g.callStep? c k r (.enter c) = some g') :
    Acted g (.enter c) c k r g' := by
  simp only [callStep?, Option.map_eq_some_iff] at h
  obtain ⟨g₁, h₁, rfl⟩ := h
  obtain ⟨i, p, hi, hp, rfl⟩ := onPool?_eq_some h₁
  obtain ⟨old, new, hmoved, hold, hnew⟩ := Pool.enter_moved hp
  have hleads := Pool.leads_of_step? hp rfl
  have hphase : ({ g with pool := p } : Generator).phaseOf? k = some new := (phaseOf?_eq hi).trans hmoved.after
  have hbefore (hp : (g.viewOf c k r).phase = some old) :
      (g.viewOf c k r).phase = some .arriving ∨ (g.viewOf c k r).phase = some .waiting := by
    rw [hp]
    simpa using hold
  rcases hnew with rfl | ⟨n, rfl⟩ | rfl
  · simp only [hphase]
    exact acted_onPool hk hi hleads hmoved rfl rfl fun hp => .park (hbefore hp)
  · simp only [hphase]
    exact acted_onPool hk hi hleads hmoved rfl rfl fun hp => .enter n (hbefore hp)
  · simp only [hphase]
    exact acted_pool (fun k => { k with caller := .leaving .closed }) hk hi hleads hmoved rfl rfl rfl rfl
      fun hp => .refuse (hbefore hp)

theorem start_acted {possible : Bool} (hk : g.calls[c]? = some k)
    (h : g.callStep? c k r (.start c possible) = some g') : Acted g (.start c possible) c k r g' := by
  obtain ⟨i, p, hi, hp, rfl⟩ := onPool?_eq_some h
  obtain ⟨n, hmoved⟩ := Pool.start_moved hp
  have hleads := Pool.leads_of_step? hp rfl
  cases possible with
  | true => exact acted_onPool hk hi hleads hmoved rfl rfl fun hp => .start n hp
  | false => exact acted_onPool hk hi hleads hmoved rfl rfl fun hp => .stick n hp

theorem giveBack_acted (hk : g.calls[c]? = some k) (h : g.callStep? c k r (.giveBack c) = some g') :
    Acted g (.giveBack c) c k r g' := by
  unfold callStep? at h
  dsimp only at h
  split at h
  next n hphase =>
    obtain ⟨g₁, h₁, rfl⟩ := Option.map_eq_some_iff.1 h
    obtain ⟨i, p, hi, hp, rfl⟩ := onPool?_eq_some h₁
    rw [phaseOf?_eq hi] at hphase
    rcases Pool.release_moved hp with ⟨m, hmoved⟩ | ⟨m, hmoved⟩
    · rw [hmoved.before] at hphase
      cases hphase
    · exact acted_pool (fun k => { k with caller := .leaving .noThread }) hk hi (Pool.leads_of_step? hp rfl) hmoved
        rfl rfl rfl rfl fun hp => .giveBack m hp
  next => cases h

theorem release_acted (hk : g.calls[c]? = some k) (h : g.callStep? c k r (.release c) = some g') :
    Acted g (.release c) c k r g' := by
  unfold callStep? at h
  dsimp only at h
  split at h
  next o hw =>
    obtain ⟨g₁, h₁, h₂⟩ := Option.bind_eq_some_iff.1 h
    obtain ⟨i, p, hi, hp, rfl⟩ := onPool?_eq_some h₁
    obtain ⟨j, q, hj, hq, rfl⟩ := onPool?_eq_some h₂
    obtain rfl : i = j := Option.some.inj (hi.symm.trans hj)
    obtain ⟨n, hended⟩ := Pool.finish_moved hp
    rcases Pool.release_moved hq with ⟨m, hdone⟩ | ⟨m, hstuck⟩
    · obtain rfl : n = m := by simpa using hended.after.symm.trans hdone.before
      have hleads : Pool.Leads g.pool q := (Pool.leads_of_step? hp rfl).trans (Pool.leads_of_step? hq rfl)
      exact acted_onPool hk hi hleads (hended.trans hdone) rfl rfl fun hp => .release n o hw hp
    · simpa using hended.after.symm.trans hstuck.before
  next => cases h

theorem abandon_acted (hk : g.calls[c]? = some k) (h : g.callStep? c k r (.abandon c) = some g') :
    Acted g (.abandon c) c k r g' := by
  unfold callStep? at h
  dsimp only at h
  split at h
  next why hc =>
    obtain rfl := Option.some.inj h
    exact acted_countDown (fun k => { k with caller := .refused why }) hk rfl rfl rfl rfl (.abandon why hc)
  next => cases h

theorem leave_acted (hk : g.calls[c]? = some k) (h : g.callStep? c k r (.leave c) = some g') :
    Acted g (.leave c) c k r g' := by
  unfold callStep? at h
  dsimp only at h
  split at h
  next o hw =>
    split at h
    next hm =>
      obtain rfl := Option.some.inj h
      rw [setCaller, setWork, modifyCall_modifyCall]
      exact acted_countDown _ hk rfl rfl rfl rfl (.leaveDirect o hw hm)
    next hm =>
      obtain rfl := Option.some.inj h
      exact acted_countDown (fun k => { k with work := .left o }) hk rfl rfl rfl rfl (.leavePooled o hw hm)
  next => cases h

theorem answer_acted (hk : g.calls[c]? = some k) (h : g.callStep? c k r (.answer c) = some g') :
    Acted g (.answer c) c k r g' := by
  unfold callStep? at h
  dsimp only at h
  split at h
  next phase hc hphase =>
    split at h
    next hworker =>
      obtain rfl := Option.some.inj h
      have hturn (n : Nat) (hp : g.phaseOf? k = some (.running n) ∨ g.phaseOf? k = some (.ended n) ∨
          g.phaseOf? k = some (.done n)) : Acted g (.answer c) c k r (g.setCaller c (.returned r.id)) :=
        acted_modifyCall (fun k => { k with caller := .returned r.id }) g.clock hk rfl rfl rfl rfl
          (.answer r.id n hc hp)
      cases phase with
      | running n => exact hturn n (.inl hphase)
      | ended n => exact hturn n (.inr (.inl hphase))
      | done n => exact hturn n (.inr (.inr hphase))
      | _ => simp [Pool.Phase.worker?] at hworker
    next => cases h
  next => cases h

theorem mayRun_view (h : g.mayRun k = true) : (g.viewOf c k r).MayRun := by
  unfold mayRun at h
  unfold View.MayRun
  cases hm : k.mode with
  | direct =>
    have hc : k.caller = .inside := by simpa [hm] using h
    exact .inl ⟨hm, hc⟩
  | pooled =>
    simp only [hm] at h
    split at h
    next n hp => exact .inr ⟨hm, n, hp⟩
    next => cases h

theorem arm_acted (hk : g.calls[c]? = some k) (h : g.callStep? c k r (.arm c) = some g') :
    Acted g (.arm c) c k r g' := by
  unfold callStep? at h
  dsimp only at h
  split at h
  next hrun =>
    simp only [Bool.and_eq_true, decide_eq_true_eq] at hrun
    obtain rfl := Option.some.inj h
    exact acted_modifyCall (fun k => { k with work := .armed g.clock false }) g.clock hk rfl rfl rfl rfl
      (.arm g.clock (mayRun_view hrun.1) hrun.2)
  next => cases h

theorem launch_acted (hk : g.calls[c]? = some k) (h : g.callStep? c k r (.launch c) = some g') :
    Acted g (.launch c) c k r g' := by
  unfold callStep? at h
  dsimp only at h
  split at h
  next since expired hw =>
    obtain rfl := Option.some.inj h
    have hacted (work : Work) (hturn : Turn g.plan c (g.viewOf c k r) (.launch c)
        ((g.viewOf c k r).setWork work)) : Acted g (.launch c) c k r (g.setWork c work) :=
      acted_modifyCall (fun k => { k with work }) g.clock hk rfl rfl rfl rfl hturn
    unfold launchRun
    simp only
    split
    · exact hacted _ (.skip since expired r.id hw)
    · split
      next stdout ho => exact hacted _ (.launch since g.clock expired r.id stdout hw ho)
      next o ho => exact hacted _ (.fail since expired r.id (.ok o) hw (congrArg Result.ofStart? ho))
      next reason ho => exact hacted _ (.fail since expired r.id (.error reason) hw (congrArg Result.ofStart? ho))
  next => cases h

theorem exit_acted (hk : g.calls[c]? = some k) (hr : g.requestOf? k = some r)
    (h : g.callStep? c k r (.exit c) = some g') : Acted g (.exit c) c k r g' := by
  unfold callStep? at h
  dsimp only at h
  split at h
  next since opened id stdout hw =>
    obtain rfl := Option.some.inj h
    have hended := Session.finish_eq (s := g.sessionUnder r id) (g.plan.session_free { r with id })
    simp only [endRun, hk, hw, hr, hended]
    exact acted_modifyCall _ _ hk rfl rfl rfl rfl (.exit since opened _ id stdout hw)
  next => cases h

theorem deliver_acted (hk : g.calls[c]? = some k) (h : g.callStep? c k r (.deliver c) = some g') :
    Acted g (.deliver c) c k r g' := by
  unfold callStep? at h
  dsimp only at h
  split at h
  next since o hw =>
    split at h
    next hqueued =>
      obtain rfl := Option.some.inj h
      exact acted_put (fun k => { k with work := .delivered o }) hk rfl rfl rfl rfl rfl
        (.deliver since (g.clock.sub since) o hw hqueued)
    next hqueued =>
      obtain rfl := Option.some.inj h
      exact acted_modifyCall (fun k => { k with work := .delivered o }) g.clock hk rfl rfl rfl rfl
        (.keep since o hw (Bool.eq_false_iff.2 hqueued))
  next => cases h

/-! ## All of them -/

theorem step?_eq_callStep? (ha : a.call? = some c) :
    g.step? a = g.calls[c]?.bind fun k => (g.requestOf? k).bind fun r => g.callStep? c k r a := by
  cases hk : g.calls[c]? with
  | none => cases a <;> cases ha <;> simp [step?, Action.call?, hk]
  | some k => cases hr : g.requestOf? k <;> cases a <;> cases ha <;> simp [step?, Action.call?, hk, hr]

theorem callStep?_of_step? (h : g.step? a = some g') (ha : a.call? = some c) :
    ∃ k r, g.calls[c]? = some k ∧ g.requestOf? k = some r ∧ g.callStep? c k r a = some g' := by
  rw [step?_eq_callStep? ha, Option.bind_eq_some_iff] at h
  obtain ⟨k, hk, h⟩ := h
  obtain ⟨r, hr, h⟩ := Option.bind_eq_some_iff.1 h
  exact ⟨k, r, hk, hr, h⟩

theorem call?_of_own? (ha : a.own? = some c) : a.call? = some c := by
  cases a <;> first | exact ha | cases ha

theorem step?_acted (h : g.step? a = some g') (ha : a.own? = some c) :
    ∃ k r, g.calls[c]? = some k ∧ g.requestOf? k = some r ∧ Acted g a c k r g' := by
  obtain ⟨k, r, hk, hr, h⟩ := callStep?_of_step? h (call?_of_own? ha)
  refine ⟨k, r, hk, hr, ?_⟩
  cases a with
  | count =>
    cases ha
    exact count_acted hk h
  | enter =>
    cases ha
    exact enter_acted hk h
  | start =>
    cases ha
    exact start_acted hk h
  | giveBack =>
    cases ha
    exact giveBack_acted hk h
  | abandon =>
    cases ha
    exact abandon_acted hk h
  | answer =>
    cases ha
    exact answer_acted hk h
  | arm =>
    cases ha
    exact arm_acted hk h
  | launch =>
    cases ha
    exact launch_acted hk h
  | exit =>
    cases ha
    exact exit_acted hk hr h
  | deliver =>
    cases ha
    exact deliver_acted hk h
  | leave =>
    cases ha
    exact leave_acted hk h
  | release =>
    cases ha
    exact release_acted hk h
  | _ => cases ha

end Thumbnailer.Generator
