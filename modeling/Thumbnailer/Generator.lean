import Thumbnailer.Plan

/-!
# Generators

A generator runs a plan for many requests. A call is made with a request: a direct call runs the encoder itself
and returns when it has ended; a pooled call waits until the pool admits it, and returns while a worker runs
the encoder. A counter tells how many calls are under way, and somebody can wait until there is none.

Everything that happens is a sequence of actions, each of which happens at once.
-/

namespace Thumbnailer

/-- What a caller wants to be generated. A request can be used for several calls. -/
structure Request where
  media : String
  destinations : OrderedMap Int String := []
  /-- The caller can cancel it. -/
  cancellable : Bool := false
  /-- Its results are put on the queue. -/
  queued : Bool := false
  /-- It has a time limit. -/
  limited : Bool := false
  attributes : FreeAttributes := noAttributes
  /-- What the encoder does. -/
  child : Child := {}
  /-- The number of the last pooled call with this request; 0 if there was none. -/
  id : Nat := 0
  /-- It was cancelled. -/
  cancelled : Bool := false
deriving DecidableEq, Repr

/-- The attributes of what is logged about a request; its number goes before an attribute of that name. -/
def Request.logAttributes (r : Request) : Attributes :=
  if 0 < r.id then OrderedMap.insert r.attributes.val "request_id" (.number r.id) else r.attributes

theorem Request.logAttributes_reserved? (r : Request) : r.logAttributes.reserved? = none := by
  unfold Request.logAttributes
  split
  · exact Attributes.reserved?_insert r.attributes.property (by decide) _
  · exact r.attributes.property

def Plan.session (p : Plan) (r : Request) : Session where
  program := p.program
  arguments := (p.args r.media r.destinations).drop 1
  readsProgress := p.reportsProgress
  callback := p.callback.map Observer.callback
  channel := p.channel
  attributes := r.logAttributes

namespace Generator

/-- What a run of the encoder came to. -/
abbrev Result := Except Escape Outcome

/-- Why a call gives no outputs. -/
inductive CallError where
  | failed (reason : RunError)
  /-- The run of the encoder broke off. -/
  | broken (reason : Escape)
deriving DecidableEq, Repr

def CallError.message : CallError → String
  | .failed reason => reason.message
  | .broken reason => reason.message

def Result.error? : Result → Option CallError
  | .ok o => o.runError?.map .failed
  | .error reason => some (.broken reason)

/-- Who runs the encoder: the caller, or a worker of the pool. -/
inductive Mode where
  | direct
  | pooled
deriving DecidableEq, Repr

inductive Caller where
  /-- The call is made, but not counted yet. -/
  | calling
  /-- The call is counted. -/
  | inside
  /-- The pool refused the call, which is still counted. -/
  | leaving (why : Pool.Refusal)
  | refused (why : Pool.Refusal)
  /-- A pooled call returned this number. -/
  | returned (id : Nat)
  /-- A direct call returned, or failed with this error. -/
  | finished (error : Option CallError)
deriving DecidableEq, Repr

inductive Work where
  | idle
  /-- The time limit, if there is one, runs since then; it may have expired without cancelling the request. -/
  | armed (since : Double) (expired : Bool)
  /-- The encoder runs since `opened`, under the number that the request had then, and has written this. -/
  | alive (since opened : Double) (id : Nat) (stdout : List Char)
  /-- The encoder has ended. -/
  | over (since : Double) (result : Result)
  /-- The result is delivered. -/
  | delivered (result : Result)
  /-- The call is not counted any more. -/
  | left (result : Result)
deriving DecidableEq, Repr

/-- A call with a request, given by number. A pooled call has a number of its own, and a task in the pool
once it is counted. -/
structure Call where
  request : Nat
  mode : Mode
  id : Nat := 0
  task : Option Nat := none
  caller : Caller := .calling
  work : Work := .idle
deriving DecidableEq, Repr

/-- How far somebody has come who waits for all calls to end. -/
inductive WaitPhase where
  | arriving
  | waiting
  /-- All calls have ended; the pool is to be closed. -/
  | closing
  | returned
deriving DecidableEq, Repr

/-- Somebody who waits for all calls to end, and may close the pool then. -/
structure Wait where
  closes : Bool
  phase : WaitPhase := .arriving
deriving DecidableEq, Repr

/-- The result of a pooled call. -/
structure Delivery where
  call : Nat
  request : Nat
  error : Option CallError
  duration : Double
deriving DecidableEq, Repr

end Generator

/-- A generator with all calls that were ever made. -/
structure Generator where
  plan : Plan
  pool : Pool
  requests : List Request := []
  calls : List Generator.Call := []
  /-- The number of the next pooled call. -/
  nextId : Nat := 1
  /-- How many calls are under way. -/
  outstanding : Int := 0
  waits : List Generator.Wait := []
  /-- Those who wait, by number. -/
  parked : List Nat := []
  /-- Those who were woken and are about to look again. -/
  woken : List Nat := []
  /-- The results on the queue, in order. -/
  queue : List Generator.Delivery := []
  clock : Double := .zero false

namespace Generator

/-- A generator without calls, made at some time. -/
def new (plan : Plan) (concurrency : Int) (clock : Double := .zero false) : Generator :=
  { plan, pool := .new concurrency "ffthumbs", clock }

/-! ## Actions -/

/-- Something that happens in a generator at once. Requests, calls and waits are given by number. -/
inductive Action where
  /-- Somebody makes a request. -/
  | request (r : Request)
  /-- Somebody makes a call; a pooled call draws its number. -/
  | call (request : Nat) (mode : Mode)
  /-- The call is counted; a pooled call comes to the pool. -/
  | count (call : Nat)
  /-- The pooled call looks whether the pool admits it. -/
  | enter (call : Nat)
  /-- The worker of an admitted call is started, if there is a thread for it. -/
  | start (call : Nat) (possible : Bool)
  /-- A call without a worker gives its slot back. -/
  | giveBack (call : Nat)
  /-- A refused call is not counted any more. -/
  | abandon (call : Nat)
  /-- A pooled call returns the number of its request. -/
  | answer (call : Nat)
  /-- The run begins, and with it the time limit. -/
  | arm (call : Nat)
  /-- The encoder is started, unless the run was cancelled before. -/
  | launch (call : Nat)
  /-- The encoder ends by itself. -/
  | exit (call : Nat)
  /-- The caller cancels a request, which kills its encoders. -/
  | cancel (request : Nat)
  /-- The time limit of a run expires, which kills the encoder. -/
  | expire (call : Nat)
  /-- The result is put on the queue, and the time limit ends. -/
  | deliver (call : Nat)
  /-- The call is not counted any more. -/
  | leave (call : Nat)
  /-- The worker gives its slot back. -/
  | release (call : Nat)
  | tune (capacity : Int)
  | close
  /-- Somebody comes to wait for all calls to end. -/
  | await (closes : Bool)
  /-- Somebody looks whether calls are under way. -/
  | look (wait : Nat)
  /-- Somebody who has waited closes the pool. -/
  | shut (wait : Nat)
deriving DecidableEq, Repr

def modifyCall (g : Generator) (c : Nat) (f : Call → Call) : Generator :=
  { g with calls := g.calls.modify c f }

def setCaller (g : Generator) (c : Nat) (caller : Caller) : Generator :=
  g.modifyCall c fun k => { k with caller }

def setWork (g : Generator) (c : Nat) (work : Work) : Generator :=
  g.modifyCall c fun k => { k with work }

def requestOf? (g : Generator) (k : Call) : Option Request := g.requests[k.request]?

/-- How far the task of a call has come in the pool. -/
def phaseOf? (g : Generator) (k : Call) : Option Pool.Phase := k.task.bind g.pool.phase?

def onPool? (g : Generator) (k : Call) (action : Nat → Pool.Action) : Option Generator :=
  (k.task.bind fun i => g.pool.step? (action i)).map fun pool => { g with pool }

/-- Counts one call less. When none is left, all who wait are woken. -/
def countDown (g : Generator) : Generator :=
  let outstanding := g.outstanding - 1
  if outstanding = 0 then { g with outstanding, parked := [], woken := g.woken ++ g.parked }
  else { g with outstanding }

/-- Somebody who waits looks at the count. -/
def lookAt (g : Generator) (w : Nat) (wait : Wait) : Generator :=
  let g := { g with woken := g.woken.erase w }
  if g.outstanding = 0 then
    { g with waits := g.waits.set w { wait with phase := if wait.closes then .closing else .returned } }
  else { g with waits := g.waits.set w { wait with phase := .waiting }, parked := g.parked ++ [w] }

/-! ## Runs of the encoder -/

/-- The session of a run, under the number that the request had when the encoder was started. -/
def sessionUnder (g : Generator) (r : Request) (id : Nat) : Session := g.plan.session { r with id }

def endRun (g : Generator) (c : Nat) (ending : Ending) : Generator :=
  match g.calls[c]? with
  | some k =>
    match k.work, g.requestOf? k with
    | .alive since opened id stdout, some r =>
      let clock := g.clock.add r.child.seconds
      let ended := (g.sessionUnder r id).finish r.child stdout ending (clock.sub opened)
      { g with clock }.setWork c (.over since ended.result)
    | _, _ => g
  | none => g

def endEvents (g : Generator) (c : Nat) (ending : Ending) : List Event :=
  match g.calls[c]? with
  | some k =>
    match k.work, g.requestOf? k with
    | .alive _ opened id stdout, some r =>
      let clock := g.clock.add r.child.seconds
      ((g.sessionUnder r id).finish r.child stdout ending (clock.sub opened)).events
    | _, _ => []
  | none => []

def killAll (g : Generator) : List Nat → Generator
  | [] => g
  | c :: rest => killAll (g.endRun c .killed) rest

def killEvents (g : Generator) : List Nat → List Event
  | [] => []
  | c :: rest => g.endEvents c .killed ++ killEvents (g.endRun c .killed) rest

def callsWith (g : Generator) (request : Nat) : List Nat :=
  (List.range g.calls.length).filter fun c => (g.calls[c]?.map Call.request) = some request

def cancelRequest (g : Generator) (request : Nat) : Generator :=
  { g with requests := g.requests.modify request fun r => { r with cancelled := true } }.killAll
    (g.callsWith request)

/-- The time limit of a run is running. -/
def Work.ticking : Work → Bool
  | .armed .. | .alive .. | .over .. => true
  | _ => false

/-- The run was cancelled before the encoder was started. -/
def Work.expired : Work → Bool
  | .armed _ expired => expired
  | _ => false

/-- The run of a call may begin: its caller runs it, or its worker has started. -/
def mayRun (g : Generator) (k : Call) : Bool :=
  match k.mode with
  | .direct => k.caller = .inside
  | .pooled => match g.phaseOf? k with
    | some (.running _) => true
    | _ => false

/-- The result of a request that was cancelled before the encoder was started, or what starting it gives. -/
def launchRun (g : Generator) (c : Nat) (r : Request) (since : Double) (expired : Bool) : Generator :=
  let s := g.plan.session r
  if r.cancelled || expired then g.setWork c (.over since (.ok s.cancelledBefore))
  else
    match (s.start r.child).result with
    | .ok (.running stdout) => g.setWork c (.alive since g.clock r.id stdout)
    | .ok (.failed o) => g.setWork c (.over since (.ok o))
    | .error reason => g.setWork c (.over since (.error reason))

def launchEvents (g : Generator) (r : Request) (expired : Bool) : List Event :=
  if r.cancelled || expired then [] else ((g.plan.session r).start r.child).events

/-! ## Steps -/

def callStep? (g : Generator) (c : Nat) (k : Call) (r : Request) : Action → Option Generator
  | .count _ =>
    if k.caller = .calling then
      let g := { g with outstanding := g.outstanding + 1 }.setCaller c .inside
      match k.mode with
      | .direct => some g
      | .pooled =>
        (g.pool.step? (.submit none)).map fun pool =>
          { g with pool }.modifyCall c fun k => { k with task := some g.pool.tasks.length }
    else none
  | .enter _ =>
    (g.onPool? k .enter).map fun g =>
      match g.phaseOf? k with
      | some (.refused why) => g.setCaller c (.leaving why)
      | _ => g
  | .start _ possible => g.onPool? k fun i => .start i possible
  | .giveBack _ =>
    match g.phaseOf? k with
    | some (.stuck _) => (g.onPool? k .release).map (·.setCaller c (.leaving .noThread))
    | _ => none
  | .abandon _ =>
    match k.caller with
    | .leaving why => some (g.countDown.setCaller c (.refused why))
    | _ => none
  | .answer _ =>
    match k.caller, g.phaseOf? k with
    | .inside, some phase => if phase.worker?.isSome then some (g.setCaller c (.returned r.id)) else none
    | _, _ => none
  | .arm _ => if g.mayRun k && k.work = .idle then some (g.setWork c (.armed g.clock false)) else none
  | .launch _ =>
    match k.work with
    | .armed since expired => some (g.launchRun c r since expired)
    | _ => none
  | .exit _ =>
    match k.work with
    | .alive .. => some (g.endRun c .exited)
    | _ => none
  | .expire _ =>
    if r.limited && k.work.ticking then
      if r.cancellable then some (g.cancelRequest k.request)
      else
        match k.work with
        | .armed since _ => some (g.setWork c (.armed since true))
        | .alive .. => some (g.endRun c .killed)
        | _ => some g
    else none
  | .deliver _ =>
    match k.work with
    | .over since o =>
      let g := g.setWork c (.delivered o)
      if k.mode = .pooled && r.queued then
        let d : Delivery := ⟨c, k.request, o.error?, g.clock.sub since⟩
        some { g with queue := g.queue ++ [d] }
      else some g
    | _ => none
  | .leave _ =>
    match k.work with
    | .delivered o =>
      let g := g.countDown.setWork c (.left o)
      match k.mode with
      | .direct => some (g.setCaller c (.finished o.error?))
      | .pooled => some g
    | _ => none
  | .release _ =>
    match k.work with
    | .left _ => (g.onPool? k .finish).bind fun g => g.onPool? k .release
    | _ => none
  | _ => none

def Action.call? : Action → Option Nat
  | .count c | .enter c | .start c _ | .giveBack c | .abandon c | .answer c | .arm c | .launch c
  | .exit c | .expire c | .deliver c | .leave c | .release c => some c
  | _ => none

def step? (g : Generator) (a : Action) : Option Generator :=
  match a with
  | .request r => some { g with requests := g.requests ++ [r] }
  | .call request mode =>
    match g.requests[request]?, mode with
    | some _, .direct => some { g with calls := g.calls ++ [{ request, mode }] }
    | some r, .pooled =>
      some { g with
        requests := g.requests.set request { r with id := g.nextId }
        calls := g.calls ++ [{ request, mode, id := g.nextId }]
        nextId := g.nextId + 1 }
    | none, _ => none
  | .cancel request =>
    match g.requests[request]? with
    | some r => if r.cancellable then some (g.cancelRequest request) else none
    | none => none
  | .tune n => (g.pool.step? (.tune n)).map fun pool => { g with pool }
  | .close => (g.pool.step? .close).map fun pool => { g with pool }
  | .await closes => some { g with waits := g.waits ++ [{ closes }] }
  | .look w =>
    match g.waits[w]? with
    | some wait =>
      if wait.phase = .arriving || (wait.phase = .waiting && g.woken.contains w) then
        some (g.lookAt w wait)
      else none
    | none => none
  | .shut w =>
    match g.waits[w]? with
    | some ⟨closes, .closing⟩ =>
      (g.pool.step? .close).map fun pool => { g with pool, waits := g.waits.set w ⟨closes, .returned⟩ }
    | _ => none
  | a =>
    match a.call? with
    | none => none
    | some c =>
      match g.calls[c]? with
      | none => none
      | some k =>
        match g.requestOf? k with
        | none => none
        | some r => g.callStep? c k r a

/-- The warning about a failed call whose result nobody receives. -/
def undelivered (g : Generator) (r : Request) (o : Result) : List Event :=
  match o.error? with
  | none => []
  | some e =>
    [.log {
      level := .warning
      message := s!"Request {r.id} failed with no result queue attached: {e.message}"
      attributes := r.logAttributes
      channel := g.plan.channel }]

def callEvents (g : Generator) (c : Nat) (k : Call) (r : Request) : Action → List Event
  | .launch _ =>
    match k.work with
    | .armed _ expired => g.launchEvents r expired
    | _ => []
  | .exit _ => g.endEvents c .exited
  | .expire _ =>
    if r.limited && k.work.ticking then
      if r.cancellable then g.killEvents (g.callsWith k.request) else g.endEvents c .killed
    else []
  | .deliver _ =>
    match k.work with
    | .over _ o => if k.mode = .pooled && !r.queued then g.undelivered r o else []
    | _ => []
  | _ => []

def events (g : Generator) (a : Action) : List Event :=
  match a with
  | .cancel request => g.killEvents (g.callsWith request)
  | .tune n => (g.pool.records (.tune n)).map .log
  | a =>
    match a.call? with
    | none => []
    | some c =>
      match g.calls[c]? with
      | none => []
      | some k =>
        match g.requestOf? k with
        | none => []
        | some r => g.callEvents c k r a

end Generator

end Thumbnailer
