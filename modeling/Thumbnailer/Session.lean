import Thumbnailer.Number.Fixed
import Thumbnailer.Path
import Thumbnailer.Session.Child
import Thumbnailer.Session.Course
import Thumbnailer.Session.ErrorLine
import Thumbnailer.Session.Outcome
import Thumbnailer.Text.Shell

/-!
# Sessions

A session runs one program to its end. It reads progress reports from the standard output or keeps it as it
is, tells a callback about each report, and can be cancelled, which kills the program.
-/

namespace Thumbnailer

/-- How a call of a callback ends. -/
inductive Answer where
  | returned
  | failed (cause : String)
  /-- With what is more than an error, such as a request to leave the whole program. -/
  | broke (cause : String)
deriving DecidableEq, Repr

/-- What a callback does when it is called for the n-th time. -/
abbrev Callback := Nat → Progress → Answer

/-- A callback that returns or fails: the error that its n-th call ends with, if it ends with one. -/
abbrev Observer := Nat → Progress → Option String

def Observer.callback (o : Observer) : Callback := fun n p =>
  match o n p with
  | none => .returned
  | some cause => .failed cause

/-- A program with its arguments, and what is to be done with its output. -/
structure Session where
  program : String
  arguments : List String := []
  readsProgress : Bool := false
  keepsStdout : Bool := false
  callback : Option Callback := none
  channel : Channel := .standard
  /-- Records below this level are not made. -/
  level : Level := .debug
  attributes : Attributes := []
  /-- The program of an earlier run was killed. -/
  killed : Bool := false

/-- A session whose attributes leave the fields of a record alone. -/
abbrev FreeSession := { s : Session // s.attributes.reserved? = none }

/-- When a session is cancelled. -/
inductive Cancel where
  | never
  | beforeStart
  /-- While the program is alive and has written all its output. -/
  | whileRunning
  /-- After the program exited by itself. -/
  | afterExit
deriving DecidableEq, Repr

inductive SessionError where
  | noProgram
deriving DecidableEq, Repr

def SessionError.message : SessionError → String
  | .noProgram => "list index out of range"

namespace Session

/-- Gives a session its program and arguments. -/
def withArgs (s : Session) : List String → Except SessionError Session
  | [] => .error .noProgram
  | program :: arguments => .ok { s with program, arguments }

def args (s : Session) : List String := s.program :: s.arguments

def name (s : Session) : String := Path.base s.program

def command (s : Session) : String := Text.shellCommand s.args

def piped (s : Session) : Bool := s.readsProgress || s.keepsStdout

/-! ## Log records -/

def record (s : Session) (level : Level) (message : String) (cause : Option String := none) : Event :=
  .log { level, message, attributes := s.attributes, cause, channel := s.channel }

/-- Records of a level are made. -/
def isLogging (s : Session) (level : Level) : Bool := s.level.rank ≤ level.rank

def log (s : Session) (level : Level) (message : String) (cause : Option String := none) : Course Unit :=
  if s.isLogging level then
    match s.attributes.reserved? with
    | some name => .broken (.reserved name)
    | none => .seen (s.record level message cause)
  else pure ()

/-! ## Reading the standard output -/

/-- What has been read so far: the latest progress, how often the callback was called, and the text. -/
structure Reading where
  progress : Progress := {}
  calls : Nat := 0
  text : List Char := []
deriving DecidableEq, Repr

/-- Calls the callback for the n-th time. An error that it ends with is logged. -/
def call (s : Session) (n : Nat) (p : Progress) (callback : Callback) : Course Unit := do
  .seen (.report p)
  match callback n p with
  | .returned => pure ()
  | .failed cause => s.log .error "Progress callback failed" (some cause)
  | .broke cause => .broken (.callback cause)

def progressMessage (p : Progress) : String :=
  s!"Progress update: progress={p.state} time={p.time} speed={p.speed}"

/-- A report is logged, and the callback is called. -/
def report (s : Session) (n : Nat) (p : Progress) : Course Unit := do
  s.log .info (progressMessage p)
  s.callback.forM (s.call n p)

def readLine (s : Session) (r : Reading) (line : List Char) : Course Reading := do
  let r := if s.keepsStdout then { r with text := r.text ++ line } else r
  if s.readsProgress then
    match r.progress.feed line with
    | (none, progress) => pure { r with progress }
    | (some p, progress) =>
      s.report r.calls p
      pure { r with progress, calls := r.calls + 1 }
  else pure r

/-- Reads the whole standard output, if it is read at all. -/
def readStdout (s : Session) (child : Child) : Course Reading :=
  if s.piped then (Text.lines child.stdoutText).foldlM s.readLine {} else pure {}

/-! ## Start and end -/

/-- The outcome of a session in which no program ran. -/
def notStarted (s : Session) (message : String) (cancelled : Bool) : Outcome where
  success := false
  returnCode := -1
  stderr := message
  command := s.command
  error := some message
  cancelled := cancelled

/-- The outcome of a session that was cancelled before its start. -/
def cancelledBefore (s : Session) : Outcome := s.notStarted "Cancelled before start" true

/-- A program after an attempt to start it. -/
inductive Started where
  | failed (outcome : Outcome)
  /-- The program runs and has written this. -/
  | running (stdout : List Char)
deriving DecidableEq, Repr

/-- Attempts to start the program, and tells why it does not run if it does not. -/
def launch (s : Session) (child : Child) : Course (Option SystemError) := do
  s.log .debug s!"Launching {s.name}: {s.command}"
  .seen (.launch s.args s.piped)
  if child.refuses s.args then .broken .nullCharacter else pure child.startError

def start (s : Session) (child : Child) : Course Started := do
  match ← s.launch child with
  | some e =>
    let message := e.message s.program
    s.log .error s!"{s.name} start failed: {message}"
    pure (.failed (s.notStarted message false))
  | none =>
    let r ← s.readStdout child
    pure (.running r.text)

def outcome (s : Session) (child : Child) (stdout : List Char) (ending : Ending) (duration : Double) :
    Outcome :=
  let cancelled := s.killed || ending = .killed
  let success := child.endCode ending = 0 && !cancelled
  { success
    returnCode := child.endCode ending
    stdout := String.ofList stdout
    stderr := child.stderrText
    command := s.command
    duration
    cancelled
    error :=
      if cancelled then some s!"{s.name} was cancelled"
      else if success then none
      else some (errorLine child.stderrText) }

def finalLevel (o : Outcome) : Level := if o.success then .info else .error

def finalMessage (s : Session) (o : Outcome) : String :=
  if o.success then s!"{s.name} command finished in {o.duration.fixed 3}s"
  else
    let error := o.error.getD ""
    s!"{s.name} run failed (exit code {o.returnCode}): {error}\n{o.stderr}"

def finish (s : Session) (child : Child) (stdout : List Char) (ending : Ending) (duration : Double) :
    Course Outcome := do
  let o := s.outcome child stdout ending duration
  s.log (finalLevel o) (s.finalMessage o)
  pure o

/-- Runs the program to its end. -/
def run (s : Session) (child : Child) (cancel : Cancel) : Course Outcome :=
  if cancel = .beforeStart then pure s.cancelledBefore
  else do
    match ← s.start child with
    | .failed o => pure o
    | .running stdout =>
      s.finish child stdout (if cancel = .whileRunning then .killed else .exited) child.seconds

/-! ## Further runs -/

/-- The session after a run. That its program was killed is never forgotten. -/
def after (s : Session) (child : Child) (cancel : Cancel) : Session :=
  match cancel, (s.launch child).result with
  | .whileRunning, .ok none => { s with killed := true }
  | _, _ => s

def afterAll (s : Session) (runs : List (Child × Cancel)) : Session :=
  runs.foldl (fun s r => s.after r.1 r.2) s

end Session

end Thumbnailer
