import Thumbnailer.CommandLine.Configuration
import Thumbnailer.CommandLine.Help
import Thumbnailer.Destinations
import Thumbnailer.Generator.Schedule

/-!
# Running a command

A command reads its arguments, makes a plan and the directories for the outputs, and generates the outputs of
each input. It ends with 0 if all went well, with 1 if the outputs of an input could not be generated, and with 2
if it did not come so far.
-/

namespace Thumbnailer.CommandLine

/-! ## Ends -/

/-- The name under which the command reports errors of its arguments. -/
def programName : String := "ffthumbs"

def Exit.code : Exit → Nat
  | .help => 0
  | .usage _ => 2

def Exit.message : Exit → String
  | .help => CommandLine.help
  | .usage reason => s!"{programName}: error: {reason.message}"

inductive Finish where
  /-- It was carried out and ends with a code. -/
  | code (n : Nat)
  /-- It was not carried out. -/
  | stopped (reason : Exit)
  /-- It broke off with an error that it does not report. -/
  | broken (reason : ConfigurationError)
deriving DecidableEq, Repr

/-! ## Errors that are reported -/

end CommandLine

/-- The command reports errors of values. -/
def SettingsError.isReported : SettingsError → Bool
  | .stray kind _ => kind = .value
  | _ => true

def IntervalError.isReported : IntervalError → Bool
  | .notANumber => true
  | _ => false

namespace CommandLine

/-- The command reports the error and ends; with other errors it breaks off. -/
def ConfigurationError.isReported : ConfigurationError → Bool
  | .settings reason => reason.isReported
  | .interval reason => reason.isReported
  | .header _ => true

/-! ## Surroundings -/

/-- What a command meets on its machine: files, and what the encoder does. -/
structure Surroundings where
  machine : Machine
  /-- What the encoder does when it is asked for its version. -/
  version : Child := {}
  /-- What it does for an input. -/
  childFor : String → Child := fun _ => {}
  /-- How settings files are read. -/
  format : Settings.Format := .yaml

structure Report where
  finish : Finish
  /-- The lowest level that is logged; `none` if the command was not carried out. -/
  level : Option Level := none
  files : FileTree
  events : List Event := []

def logged (level : Level) (message : String) : Event := .log { level, message }

/-- The event is seen when only records from a level on are logged. -/
def isSeen (level : Level) : Event → Bool
  | .log r => level.rank ≤ r.level.rank
  | _ => true

/-! ## Directories -/

def makeDirectoriesFor (t : FileTree) : List String → Except PathError Unit × FileTree
  | [] => (.ok (), t)
  | destination :: rest =>
    let directory := Path.directory destination
    if directory.isEmpty then makeDirectoriesFor t rest
    else
      match t.makeDirectories directory with
      | (.ok (), t) => makeDirectoriesFor t rest
      | (.error e, t) => (.error e, t)

/-- The inputs with the directories that their outputs go into; a single input needs none of its own. -/
def subdirectories (inputs : List String) : List (String × String) :=
  match inputs with
  | [input] => [(input, "")]
  | inputs => inputs.zip (directoryNames inputs)

def destinationsIn (p : Plan) (subdirectory : String) : OrderedMap Int String :=
  p.entries.map fun e => (e.index, destinationIn subdirectory e.output.destination)

/-- Makes a request for each input and the directories that its outputs go to, until one cannot be made. -/
def prepare (s : Surroundings) (p : Plan) (t : FileTree) :
    List (String × String) → Except PathError (List Request) × FileTree
  | [] => (.ok [], t)
  | (media, subdirectory) :: rest =>
    let destinations := destinationsIn p subdirectory
    match makeDirectoriesFor t (destinations.map (·.2)) with
    | (.error e, t) => (.error e, t)
    | (.ok (), t) =>
      let (later, t) := prepare s p t rest
      (later.map ({ media, destinations, child := s.childFor media } :: ·), t)

def preparationMessage (e : PathError) : String :=
  match e with
  | .refused .. => s!"Cannot prepare outputs: {e.message}"
  | .nullCharacter => e.message

def planMessage (e : PlanError) : String :=
  match e with
  | .encoder (.unsearchable reason) => preparationMessage reason
  | e => e.message

/-! ## Generating -/

/-- A time with two places. -/
def seconds (x : Double) : String := x.fixed 2

/-- Generates the outputs of a single input. If the encoder cannot even be given its arguments, the whole command has
failed. -/
def generateOne (g : Generator) (r : Request) : Nat × List Event :=
  let (h, events) := g.perform (.call r .direct) true
  match h.calls.getLast?.map Generator.Call.caller with
  | some (.finished (some (.failed e))) =>
    (1, events ++ [logged .error s!"Generation failed for {r.media}: {e.message}"])
  | some (.finished (some (.broken reason))) => (2, events ++ [logged .error reason.message])
  | _ => (0, events ++ [logged .info s!"Done in {seconds (h.clock.sub g.clock)}s"])

def callAll (g : Generator) : List Request → Generator × List Event
  | [] => (g, [])
  | r :: rest =>
    let (h, now) := g.perform (.call { r with queued := true } .pooled) true
    let (i, later) := callAll h rest
    (i, now ++ later)

def resultRecord (g : Generator) (d : Generator.Delivery) : Event :=
  let r := g.requests[d.request]?
  let number := (r.map (·.id)).getD 0
  let media := (r.map (·.media)).getD ""
  match d.error with
  | some e => logged .error s!"Request {number} ({media}) failed after {seconds d.duration}s: {e.message}"
  | none => logged .info s!"Request {number} ({media}) processed in {seconds d.duration}s"

/-- Generates the outputs of several inputs and waits for all of them. -/
def generateAll (g : Generator) (rs : List Request) : Nat × List Event :=
  let (h, calls) := callAll g rs
  let (i, waiting) := h.perform (.await true) true
  let failed := (i.queue.filter fun d => d.error.isSome).length
  let done := logged .info s!"Done in {seconds (i.clock.sub g.clock)}s, {failed} of {rs.length} failed"
  (if failed = 0 then 0 else 1, calls ++ waiting ++ i.queue.map (resultRecord i) ++ [done])

def generate (g : Generator) (rs : List Request) : Nat × List Event :=
  match rs with
  | [r] => generateOne g r
  | rs => generateAll g rs

/-! ## The whole command -/

/-- Carries out a command, seen with the records of all levels. -/
def carryOut (s : Surroundings) (a : Arguments) : Finish × FileTree × List Event :=
  let files := s.machine.files
  let (c, records) := a.configuration (Settings.read s.format files)
  let failed (files : FileTree) (events : List Event) (message : String) : Finish × FileTree × List Event :=
    (.code 2, files, events ++ [logged .error message])
  let loaded := records.map Event.log
  match c with
  | .error e => if e.isReported then failed files loaded e.message else (.broken e, files, loaded)
  | .ok c =>
    let (plan, checked) := Plan.make s.machine (some c) s.version
    match plan with
    | .error e => failed files (loaded ++ checked) (planMessage e)
    | .ok p =>
      match prepare s p files (subdirectories a.inputs) with
      | (.error e, files) => failed files (loaded ++ checked) (preparationMessage e)
      | (.ok rs, files) =>
        let (code, events) := generate (.new p c.concurrency s.version.seconds) rs
        (.code code, files, loaded ++ checked ++ events)

def run (s : Surroundings) (words : List String) : Report :=
  match parse words with
  | .error e => { finish := .stopped e, files := s.machine.files }
  | .ok a =>
    let level := if a.verbose then Level.debug else Level.info
    let (finish, files, events) := carryOut s a
    { finish, level := some level, files, events := events.filter (isSeen level) }

end Thumbnailer.CommandLine
