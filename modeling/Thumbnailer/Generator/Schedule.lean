import Thumbnailer.Generator

/-!
# Schedules of generators

One way to run a generator: after each demand everybody goes on until all calls have ended, run an encoder that
is held, or wait. Those who are woken look again one at a time, in the order in which they were woken.
-/

namespace Thumbnailer.Generator

inductive Demand where
  /-- A call with a request of its own. -/
  | call (r : Request) (mode : Mode)
  /-- An encoder that is held may end. -/
  | finish (call : Nat)
  /-- The request of a call is cancelled. -/
  | cancel (call : Nat)
  /-- The time limit of a call expires. -/
  | expire (call : Nat)
  | tune (capacity : Int)
  | close
  | await (closes : Bool)
deriving DecidableEq, Repr

/-- The actions that a demand consists of. -/
def Demand.actions (g : Generator) : Demand → List Action
  | .call r mode => [.request r, .call g.requests.length mode]
  | .finish c => [.exit c]
  | .cancel c => (g.calls[c]?.map fun k => Action.cancel k.request).toList
  | .expire c => [.expire c]
  | .tune n => [.tune n]
  | .close => [.close]
  | .await closes => [.await closes]

/-- The action happens by itself, and there is a thread for the worker that it starts. -/
def Action.spontaneous : Action → Bool
  | .count _ | .enter _ | .giveBack _ | .abandon _ | .answer _ | .arm _ | .launch _ | .exit _ | .deliver _
  | .leave _ | .release _ | .look _ | .shut _ => true
  | .start _ possible => possible
  | _ => false

def workAction? (g : Generator) (c : Nat) (k : Call) : Option Action :=
  match k.work with
  | .idle => if g.mayRun k then some (.arm c) else none
  | .armed .. => some (.launch c)
  | .alive .. => if ((g.requestOf? k).map (·.child.held)).getD true then none else some (.exit c)
  | .over .. => some (.deliver c)
  | .delivered _ => some (.leave c)
  | .left _ => if k.mode = .pooled && g.mayRun k then some (.release c) else none

def callAction? (g : Generator) (threads : Bool) (c : Nat) (k : Call) : Option Action :=
  match k.caller with
  | .calling => some (.count c)
  | .leaving _ => some (.abandon c)
  | .inside =>
    match g.phaseOf? k with
    | none => g.workAction? c k
    | some .arriving => some (.enter c)
    | some .waiting => none
    | some (.admitted _) => some (.start c threads)
    | some (.stuck _) => some (.giveBack c)
    | some _ => some (.answer c)
  | .returned _ => g.workAction? c k
  | .refused _ | .finished _ => none

def waitAction? (w : Nat) (wait : Wait) : Option Action :=
  match wait.phase with
  | .arriving => some (.look w)
  | .closing => some (.shut w)
  | _ => none

def wokenAction? (g : Generator) : Pool.Waiter → Option Action
  | .submitter i => (g.calls.findIdx? fun k => k.task = some i).map .enter
  | .joiner _ => none

/-- What happens next by itself: whoever is under way goes on, and then the first who was woken. -/
def next? (g : Generator) (threads : Bool) : Option Action :=
  match g.calls.zipIdx.findSome? fun k => g.callAction? threads k.2 k.1 with
  | some a => some a
  | none =>
    match g.waits.zipIdx.findSome? fun w => waitAction? w.2 w.1 with
    | some a => some a
    | none =>
      match g.pool.woken.head? with
      | some waiter => g.wokenAction? waiter
      | none => g.woken.head?.map .look

/-- Lets happen what happens by itself, with what is seen of it. -/
def settleWithin (fuel : Nat) (g : Generator) (threads : Bool) : Generator × List Event :=
  match fuel with
  | 0 => (g, [])
  | fuel + 1 =>
    match g.next? threads with
    | none => (g, [])
    | some a =>
      match g.step? a with
      | none => (g, [])
      | some h =>
        let (i, later) := settleWithin fuel h threads
        (i, g.events a ++ later)

/-- More than the actions that can happen by themselves: each call goes on a few times and wakes everybody
at most twice. -/
def settleFuel (g : Generator) : Nat :=
  let count := g.calls.length + g.waits.length + 2
  16 * count * count

def settle (g : Generator) (threads : Bool) : Generator × List Event :=
  g.settleWithin g.settleFuel threads

def act (g : Generator) : List Action → Generator × List Event
  | [] => (g, [])
  | a :: rest =>
    match g.step? a with
    | none => act g rest
    | some h =>
      let (i, later) := act h rest
      (i, g.events a ++ later)

/-- Does what is asked and lets happen what follows from it. -/
def perform (g : Generator) (demand : Demand) (threads : Bool) : Generator × List Event :=
  let (h, now) := g.act (demand.actions g)
  let (i, later) := h.settle threads
  (i, now ++ later)

/-! ## Looking at a generator -/

/-- What can be said about a call. -/
inductive Status where
  /-- It waits for the pool to admit it. -/
  | blocked
  | running
  | done
  | rejected
deriving DecidableEq, Repr

def Call.answered (k : Call) : Bool :=
  match k.caller with
  | .returned _ => true
  | _ => false

def status (g : Generator) (k : Call) : Status :=
  match k.caller with
  | .refused _ => .rejected
  | .finished _ => .done
  | _ =>
    match k.mode, g.phaseOf? k with
    | .direct, _ => .running
    | .pooled, some (.done _) => .done
    | .pooled, some .arriving => .blocked
    | .pooled, some .waiting => .blocked
    | .pooled, none => .blocked
    | .pooled, some _ => .running

end Thumbnailer.Generator
