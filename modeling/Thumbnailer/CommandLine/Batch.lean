import Thumbnailer.CommandLine.Run

/-!
# Batches

A command with several inputs, action by action. The command itself makes the directories, makes its calls one
after the other, waits until all of them have ended and collects the results, while the calls and their workers go
on in any order. `generateAll` is one way for this to happen.
-/

namespace Thumbnailer.CommandLine

namespace Batch

/-- How far the command has come. -/
inductive Stage where
  /-- These inputs are left to prepare, each with the directory that its outputs go into. -/
  | preparing (left : List (String × String))
  /-- A directory could not be made. -/
  | failed (reason : PathError)
  /-- The calls are made. -/
  | calling
  /-- All calls are made, and the command waits until they have ended. -/
  | waiting
  /-- The results are taken from the queue. -/
  | collecting
  | ended (code : Nat)
deriving DecidableEq, Repr

inductive Action where
  /-- The directories for the next input are made; its encoder is going to do this. -/
  | prepare (child : Child)
  /-- All inputs are prepared, and the time of the work begins. -/
  | begin
  /-- The next call is made. -/
  | submit
  /-- All calls have returned, and the command comes to wait until they have ended. -/
  | await
  /-- The generator goes on by itself. -/
  | work (a : Generator.Action)
  /-- The command has waited. -/
  | leave
  /-- The next result is taken from the queue. -/
  | collect
  | finish
deriving DecidableEq, Repr

end Batch

/-- A command with several inputs on its way. -/
structure Batch where
  files : FileTree
  /-- The requests for the inputs that are prepared. -/
  requests : List Request := []
  generator : Generator
  /-- When the work began. -/
  began : Double := .zero false
  /-- How many results were taken from the queue. -/
  taken : Nat := 0
  /-- How many of them were failures. -/
  failures : Nat := 0
  stage : Batch.Stage

namespace Batch

/-- A command with these inputs before it prepares the first of them. -/
def new (p : Plan) (concurrency : Int) (clock : Double) (files : FileTree) (inputs : List String) : Batch :=
  { files, generator := .new p concurrency clock, stage := .preparing (subdirectories inputs) }

def pending (b : Batch) : List Generator.Delivery := b.generator.queue.drop b.taken

def answered (b : Batch) : Bool := b.generator.calls.all Generator.Call.answered

/-- The next request for which a call is to be made. -/
def next? (b : Batch) : Option Request := b.requests[b.generator.calls.length]?

def demands (b : Batch) : Action → List Generator.Action
  | .submit => b.next?.toList.flatMap fun r =>
      [.request { r with queued := true }, .call b.generator.requests.length .pooled]
  | .await => [.await true]
  | .work a => [a]
  | _ => []

def prepareNext (b : Batch) (media subdirectory : String) (left : List (String × String)) (child : Child) : Batch :=
  let destinations := destinationsIn b.generator.plan subdirectory
  match makeDirectoriesFor b.files (destinations.map (·.2)) with
  | (.ok (), files) =>
    { b with files, requests := b.requests ++ [{ media, destinations, child }], stage := .preparing left }
  | (.error e, files) => { b with files, stage := .failed e }

/-- What an action changes but the generator, if it can happen there. -/
def command? (b : Batch) : Action → Option Batch
  | .prepare child =>
    match b.stage with
    | .preparing ((media, subdirectory) :: left) => some (b.prepareNext media subdirectory left child)
    | _ => none
  | .begin =>
    if b.stage = .preparing [] then some { b with began := b.generator.clock, stage := .calling } else none
  | .submit => if b.stage = .calling && b.answered && b.next?.isSome then some b else none
  | .await =>
    if b.stage = .calling && b.answered && b.next?.isNone then some { b with stage := .waiting } else none
  | .work a => if a.spontaneous then some b else none
  | .leave =>
    if b.stage = .waiting && b.generator.waits.all (·.phase = .returned) then some { b with stage := .collecting }
    else none
  | .collect =>
    if b.stage = .collecting && b.taken < b.requests.length then
      b.pending.head?.map fun d =>
        { b with taken := b.taken + 1, failures := b.failures + d.error.isSome.toNat }
    else none
  | .finish =>
    if b.stage = .collecting && b.taken = b.requests.length then
      some { b with stage := .ended (if b.failures = 0 then 0 else 1) }
    else none

/-- The command after an action, if the action can happen. -/
def step? (b : Batch) (a : Action) : Option Batch :=
  (b.command? a).bind fun b' =>
    ((b.demands a).foldlM Generator.step? b.generator).map fun generator => { b' with generator }

def events (b : Batch) : Action → List Event
  | .work a => b.generator.events a
  | .collect => b.pending.head?.toList.map (resultRecord b.generator)
  | .finish =>
    [logged .info
      s!"Done in {seconds (b.generator.clock.sub b.began)}s, {b.failures} of {b.requests.length} failed"]
  | _ => []

end Batch

end Thumbnailer.CommandLine
