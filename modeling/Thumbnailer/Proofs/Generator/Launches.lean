import Thumbnailer.Proofs.Generator.Requests

/-!
# Starts of encoders

What a run shows, and the one action of a call that starts its encoder.
-/

namespace Thumbnailer

namespace Generator

variable {g g' : Generator} {a : Action} {as bs : List Action} {c : Nat} {k : Call} {r : Request}

/-! ## Traces -/

/-- What is seen of each action of a run. -/
def trace (g : Generator) : List Action → List (Action × List Event)
  | [] => []
  | a :: rest => (a, g.events a) ::
    match g.step? a with
    | none => []
    | some g' => g'.trace rest

def launches (g : Generator) (as : List Action) : List (List String) :=
  (g.trace as).flatMap fun e => e.2.filterMap Event.launch?

theorem trace_cons (h : g.step? a = some g') : g.trace (a :: as) = (a, g.events a) :: g'.trace as := by
  rw [trace, h]

theorem launches_cons (h : g.step? a = some g') :
    g.launches (a :: as) = (g.events a).filterMap Event.launch? ++ g'.launches as := by
  rw [launches, trace_cons h, List.flatMap_cons, launches]

/-! ## Nothing but a launch starts an encoder -/

theorem endEvents_launch? (g : Generator) (c : Nat) (ending : Ending) :
    (g.endEvents c ending).filterMap Event.launch? = [] := by
  unfold endEvents
  split
  · split
    · exact Session.finish_launch? _ _ _ _
    · rfl
  · rfl

theorem killEvents_launch? (g : Generator) (numbers : List Nat) :
    (g.killEvents numbers).filterMap Event.launch? = [] := by
  induction numbers generalizing g with
  | nil => rfl
  | cons c rest ih => rw [killEvents, List.filterMap_append, endEvents_launch?, ih, List.append_nil]

theorem undelivered_launch? (g : Generator) (r : Request) (o : Result) :
    (g.undelivered r o).filterMap Event.launch? = [] := by
  unfold undelivered
  split <;> rfl

theorem callEvents_launch? (ha : a ≠ .launch c) (hcall : a.call? = some c) :
    (g.callEvents c k r a).filterMap Event.launch? = [] := by
  cases a with
  | launch d =>
    obtain rfl := Option.some.inj hcall
    exact absurd rfl ha
  | exit d => exact g.endEvents_launch? c .exited
  | expire d =>
    simp only [callEvents]
    split
    · split
      · exact g.killEvents_launch? _
      · exact g.endEvents_launch? c .killed
    · rfl
  | deliver d =>
    simp only [callEvents]
    split
    · split
      · exact g.undelivered_launch? r _
      · rfl
    · rfl
  | _ => rfl

theorem events_eq_callEvents (hcall : a.call? = some c) (hk : g.calls[c]? = some k) (hr : g.requestOf? k = some r) :
    g.events a = g.callEvents c k r a := by
  cases a <;> cases hcall <;> simp [events, Action.call?, hk, hr]

theorem events_launch? (ha : ∀ c, a ≠ .launch c) : (g.events a).filterMap Event.launch? = [] := by
  cases hcall : a.call? with
  | none =>
    cases a with
    | cancel request => exact g.killEvents_launch? _
    | tune n => simp [events, List.filterMap_map, Function.comp_def, Event.launch?]
    | _ => first | rfl | cases hcall
  | some c =>
    cases hk : g.calls[c]? with
    | none => cases a <;> cases hcall <;> simp [events, Action.call?, hk]
    | some k =>
      cases hr : g.requestOf? k with
      | none => cases a <;> cases hcall <;> simp [events, Action.call?, hk, hr]
      | some r =>
        rw [events_eq_callEvents hcall hk hr]
        exact callEvents_launch? (ha c) hcall

/-! ## Launches -/

/-- The run of a call with a request after an attempt to start the encoder. -/
def launchedWork (g : Generator) (r : Request) (since : Double) (expired : Bool) : Work :=
  if r.cancelled || expired then .over since (.ok (g.plan.session r).cancelledBefore)
  else
    match ((g.plan.session r).start r.child).result with
    | .ok (.running stdout) => .alive since g.clock r.id stdout
    | .ok (.failed o) => .over since (.ok o)
    | .error reason => .over since (.error reason)

theorem view?_setWork {work : Work} {v : View} (hv : g.view? c = some v) :
    (g.setWork c work).view? c = some (v.setWork work) := by
  obtain ⟨hk, hasked, hphase, hresults⟩ := view?_parts hv
  exact view?_of_call (by simp [setWork, modifyCall, hk]) hasked hphase hresults

theorem launchRun_eq (g : Generator) (c : Nat) (r : Request) (since : Double) (expired : Bool) :
    g.launchRun c r since expired = g.setWork c (g.launchedWork r since expired) := by
  unfold launchRun launchedWork
  simp only
  split
  · rfl
  · split <;> simp_all

/-- The encoder of a call is started only where its run has begun, under what its request is then. -/
theorem step?_launch (h : g.step? (.launch c) = some g') (hk : g.calls[c]? = some k)
    (hr : g.requestOf? k = some r) : ∃ since expired, k.work = .armed since expired ∧
      g' = g.setWork c (g.launchedWork r since expired) ∧ g.events (.launch c) = g.launchEvents r expired := by
  rw [events_eq_callEvents (c := c) rfl hk hr]
  rw [step?_eq_callStep? (c := c) rfl, hk, Option.bind_some, hr, Option.bind_some] at h
  simp only [callStep?] at h
  split at h
  next since expired hw =>
    obtain rfl := Option.some.inj h
    exact ⟨since, expired, hw, launchRun_eq g c r since expired, by simp [callEvents, hw]⟩
  next => cases h

theorem launchEvents_launch? (g : Generator) (r : Request) (expired : Bool) :
    (g.launchEvents r expired).filterMap Event.launch? =
      if r.cancelled || expired then [] else [(g.plan.session r).args] := by
  unfold launchEvents
  split
  · rfl
  · exact Session.start_launch? (g.plan.session_free r) _

end Generator

end Thumbnailer
