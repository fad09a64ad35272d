import Thumbnailer.Log

/-!
# Worker pools

A pool runs tasks on workers of their own, at most as many at a time as it has capacity. Whoever submits a
task waits until there is room for it or the pool is closed. Everything that happens in a pool is a sequence
of actions, each of which happens at once.
-/

namespace Thumbnailer

/-- How many tasks run at a time when nothing else is said. -/
def defaultCapacity : Nat := 2

def capacityOf (n : Int) : Nat := if 0 < n then n.toNat else defaultCapacity

/-- Every capacity is positive. -/
theorem capacityOf_pos (n : Int) : 0 < capacityOf n := by
  unfold capacityOf defaultCapacity
  split <;> omega

namespace Pool

inductive Refusal where
  | closed
  /-- There is no thread for the worker. -/
  | noThread
deriving DecidableEq, Repr

/-- How far a task has come. From `admitted` to `ended` it holds a slot; the number is its worker's. -/
inductive Phase where
  /-- Submitted, but the submitter has not looked at the pool yet. -/
  | arriving
  /-- The submitter waits. -/
  | waiting
  | admitted (worker : Nat)
  /-- The worker could not be started, and the slot is not given back yet. -/
  | stuck (worker : Nat)
  | running (worker : Nat)
  /-- The task has ended, and the slot is not given back yet. -/
  | ended (worker : Nat)
  | done (worker : Nat)
  | refused (why : Refusal)
deriving DecidableEq, Repr

namespace Phase

def holdsSlot : Phase → Bool
  | .admitted _ | .stuck _ | .running _ | .ended _ => true
  | _ => false

def worker? : Phase → Option Nat
  | .running n | .ended n | .done n => some n
  | _ => none

end Phase

/-- A task, and the error that it ends with, if it ends with one. -/
structure Task where
  error : Option String := none
  phase : Phase := .arriving
deriving DecidableEq, Repr

/-- How far somebody has come who waits for all tasks to end. -/
inductive JoinPhase where
  | arriving
  | waiting
  | returned
deriving DecidableEq, Repr

/-- Somebody who waits: the submitter of a task or a joiner, by number. -/
inductive Waiter where
  | submitter (task : Nat)
  | joiner (number : Nat)
deriving DecidableEq, Repr

end Pool

/-- A pool with all tasks it was ever given. Those who wait are parked, or woken and about to look again. -/
structure Pool where
  name : String
  capacity : Nat
  running : Int := 0
  closed : Bool := false
  /-- How many workers there have been. -/
  spawned : Nat := 0
  tasks : List Pool.Task := []
  joins : List Pool.JoinPhase := []
  parked : List Pool.Waiter := []
  woken : List Pool.Waiter := []
deriving DecidableEq, Repr

namespace Pool

/-- An open pool without tasks. -/
def new (capacity : Int) (name : String) : Pool := { name, capacity := capacityOf capacity }

def Refusal.message (name : String) : Refusal → String
  | .closed => s!"worker pool {name} is closed"
  | .noThread => "can't start new thread"

def workerName (p : Pool) (worker : Nat) : String := s!"{p.name}-worker-{worker}"

/-! ## Actions -/

/-- Something that happens in a pool at once. Tasks and joiners are given by number. -/
inductive Action where
  /-- Somebody comes with a task. -/
  | submit (error : Option String)
  /-- A submitter looks whether the task can be admitted. -/
  | enter (task : Nat)
  /-- The worker of an admitted task is started, if there is a thread for it. -/
  | start (task : Nat) (possible : Bool)
  /-- A running task ends. -/
  | finish (task : Nat)
  /-- A task gives its slot back. -/
  | release (task : Nat)
  | tune (capacity : Int)
  | close
  /-- Somebody comes to wait for all tasks. -/
  | join
  /-- A joiner looks whether tasks are running. -/
  | look (joiner : Nat)
deriving DecidableEq, Repr

def phase? (p : Pool) (i : Nat) : Option Phase := p.tasks[i]?.map Task.phase

def setPhase (p : Pool) (i : Nat) (phase : Phase) : Pool :=
  { p with tasks := p.tasks.modify i fun t => { t with phase } }

/-- Wakes all who are parked; they look again in the order in which they began to wait. -/
def notifyAll (p : Pool) : Pool := { p with parked := [], woken := p.woken ++ p.parked }

/-- A submitter looks at the pool: it leaves a closed pool, waits for a full one, and takes a slot else. -/
def look (p : Pool) (i : Nat) : Pool :=
  let p : Pool := { p with woken := p.woken.erase (.submitter i) }
  if p.closed then p.setPhase i (.refused .closed)
  else if p.running < p.capacity then
    let worker := p.spawned + 1
    { p.setPhase i (.admitted worker) with running := p.running + 1, spawned := worker }
  else { p.setPhase i .waiting with parked := p.parked ++ [.submitter i] }

/-- A joiner looks at the pool: it waits while tasks are running. -/
def lookJoin (p : Pool) (j : Nat) : Pool :=
  let p : Pool := { p with woken := p.woken.erase (.joiner j) }
  if p.running = 0 then { p with joins := p.joins.set j .returned }
  else { p with parked := p.parked ++ [.joiner j], joins := p.joins.set j .waiting }

/-- A task gives its slot back and comes to its last phase. -/
def giveBack (p : Pool) (i : Nat) (phase : Phase) : Pool :=
  { (p.setPhase i phase).notifyAll with running := p.running - 1 }

def step? (p : Pool) : Action → Option Pool
  | .submit error => some { p with tasks := p.tasks ++ [{ error }] }
  | .enter i =>
    match p.phase? i with
    | some .arriving => some (p.look i)
    | some .waiting => if p.woken.contains (.submitter i) then some (p.look i) else none
    | _ => none
  | .start i possible =>
    match p.phase? i with
    | some (.admitted w) => some (p.setPhase i (if possible then .running w else .stuck w))
    | _ => none
  | .finish i =>
    match p.phase? i with
    | some (.running w) => some (p.setPhase i (.ended w))
    | _ => none
  | .release i =>
    match p.phase? i with
    | some (.ended w) => some (p.giveBack i (.done w))
    | some (.stuck _) => some (p.giveBack i (.refused .noThread))
    | _ => none
  | .tune n => some { p.notifyAll with capacity := capacityOf n }
  | .close => some { p.notifyAll with closed := true }
  | .join => some { p with joins := p.joins ++ [.arriving] }
  | .look j =>
    match p.joins[j]? with
    | some .arriving => some (p.lookJoin j)
    | some .waiting => if p.woken.contains (.joiner j) then some (p.lookJoin j) else none
    | _ => none

/-- What an action logs: a new capacity, and the error of a task. -/
def records (p : Pool) : Action → List Record
  | .tune n => [{ level := .debug, message := s!"Worker pool {p.name} capacity set to {capacityOf n}" }]
  | .finish i =>
    match p.tasks[i]? with
    | some ⟨some error, .running _⟩ =>
      [{ level := .error, message := s!"Worker pool {p.name} task failed", cause := some error }]
    | _ => []
  | _ => []

end Pool

end Thumbnailer
