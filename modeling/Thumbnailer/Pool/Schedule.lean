import Thumbnailer.Pool

/-!
# Schedules of pools

One way to run a pool: after each demand everybody goes on until all have ended, run a task or are parked. Those
who are woken look again one at a time, in the order in which they were woken.
-/

namespace Thumbnailer.Pool

inductive Demand where
  | submit (error : Option String)
  /-- A task is told to end; one that is not running does not care. -/
  | finish (task : Nat)
  | tune (capacity : Int)
  | close
  | join
deriving DecidableEq, Repr

def Demand.action : Demand → Action
  | .submit error => .submit error
  | .finish i => .finish i
  | .tune n => .tune n
  | .close => .close
  | .join => .join

def taskAction? (threads : Bool) (i : Nat) : Phase → Option Action
  | .arriving => some (.enter i)
  | .admitted _ => some (.start i threads)
  | .stuck _ => some (.release i)
  | .ended _ => some (.release i)
  | _ => none

def joinAction? (j : Nat) : JoinPhase → Option Action
  | .arriving => some (.look j)
  | _ => none

def wokenAction : Waiter → Action
  | .submitter i => .enter i
  | .joiner j => .look j

/-- What happens next by itself: whoever is under way goes on, and then the first who was woken. -/
def next? (p : Pool) (threads : Bool) : Option Action :=
  match p.tasks.zipIdx.findSome? fun t => taskAction? threads t.2 t.1.phase with
  | some a => some a
  | none =>
    match p.joins.zipIdx.findSome? fun j => joinAction? j.2 j.1 with
    | some a => some a
    | none => p.woken.head?.map wokenAction

/-- Lets happen what happens by itself, with the records of it. -/
def settleWithin (fuel : Nat) (p : Pool) (threads : Bool) : Pool × List Record :=
  match fuel with
  | 0 => (p, [])
  | fuel + 1 =>
    match p.next? threads with
    | none => (p, [])
    | some a =>
      match p.step? a with
      | none => (p, [])
      | some q =>
        let (r, later) := settleWithin fuel q threads
        (r, p.records a ++ later)

/-- More than the actions that can happen by themselves: each task goes on a few times and wakes everybody
at most twice. -/
def settleFuel (p : Pool) : Nat :=
  let count := p.tasks.length + p.joins.length + 2
  8 * count * count

def settle (p : Pool) (threads : Bool) : Pool × List Record := settleWithin p.settleFuel p threads

/-- Does what is asked and lets happen what follows from it. -/
def perform (p : Pool) (demand : Demand) (threads : Bool) : Pool × List Record :=
  match p.step? demand.action with
  | none => p.settle threads
  | some q =>
    let (r, later) := q.settle threads
    (r, p.records demand.action ++ later)

end Thumbnailer.Pool
