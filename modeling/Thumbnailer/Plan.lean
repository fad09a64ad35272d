import Thumbnailer.Command
import Thumbnailer.Encoder.Check
import Thumbnailer.Graph
import Thumbnailer.Pool

/-!
# Plans

A plan is what all runs of the encoder have in common: the program, the compiled filter graph, and the
outputs with the places they go to. It is made once from a configuration.
-/

namespace Thumbnailer

structure Config where
  outputs : List Output := []
  /-- The encoder; if it is not named, it is looked for. -/
  program : Option String := none
  /-- How many encoders may run at a time. -/
  concurrency : Int := defaultCapacity
  headers : Headers := []
  channel : Channel := .standard
  /-- The encoder does not report its progress. -/
  silent : Bool := false
  callback : Option Observer := none

/-- What all runs of the encoder have in common. -/
structure Plan where
  program : String
  graph : Graph
  outputs : List Output
  headers : Headers := []
  reportsProgress : Bool := true
  channel : Channel := .standard
  callback : Option Observer := none

inductive PlanError where
  | noConfig
  | encoder (reason : EncoderError)
  | violation (reason : Violation)
  /-- A number of an output has too many digits to be written. -/
  | unwritable
deriving DecidableEq, Repr

def PlanError.message : PlanError → String
  | .noConfig => "no config passed"
  | .encoder reason => reason.message
  | .violation reason => reason.message
  | .unwritable => Text.IntegerError.tooLarge.message

def Output.withDestination (o : Output) : Output :=
  if o.destination.isEmpty then { o with destination := defaultDestination } else o

def Output.numbers (o : Output) : List Int :=
  [o.scale.width, o.scale.height] ++ if o.isSprites then [o.columns, o.rows] else []

/-- The error that a broken rule is reported with, unless a number in its message cannot be written. -/
def PlanError.ofViolation (v : Violation) : PlanError :=
  if v.number?.all Text.isWritable then .violation v else .unwritable

namespace Plan

/-- The plan of a configuration with a program. -/
def ofConfig (program : String) (c : Config) : Except PlanError Plan :=
  let outputs := c.outputs.map Output.withDestination
  match compile outputs with
  | .error v => .error (.ofViolation v)
  | .ok graph =>
    if (outputs.flatMap Output.numbers).all Text.isWritable then
      .ok {
        program, graph, outputs
        headers := c.headers
        reportsProgress := !c.silent
        channel := c.channel
        callback := c.callback }
    else .error .unwritable

/-- What is logged when the filter graph has been compiled. -/
def compiled (p : Plan) : Record :=
  { level := .debug, message := s!"Compiled filter graph: {p.graph.text}", channel := p.channel }

/-- Makes the plan of a configuration. The encoder is checked first, by asking it for its version. -/
def make (m : Machine) (config : Option Config) (child : Child) : Except PlanError Plan × List Event :=
  match config with
  | none => (.error .noConfig, [])
  | some c =>
    let (program, events) := verifiedPath m c.program child
    match program with
    | .error e => (.error (.encoder e), events)
    | .ok program =>
      match ofConfig program c with
      | .error e => (.error e, events)
      | .ok p => (.ok p, events ++ [.log p.compiled])

def entries (p : Plan) : List Entry := entriesOf p.outputs

/-- The places that outputs go to, unless they are given other ones. -/
def destination (destinations : OrderedMap Int String) (e : Entry) : String :=
  (destinations.get? e.index).getD e.output.destination

def parts (p : Plan) (media : String) (destinations : OrderedMap Int String) : List Part :=
  [.options ["-y"], .logLevel "error", .headers p.headers, .input media, .graph p.graph.text,
    .keepTimestamps] ++
  p.entries.map (fun e => .output e.names.output (destination destinations e) e.output.quality) ++
  if p.reportsProgress then [.progress defaultProgressAddress] else []

def command (p : Plan) (media : String) (destinations : OrderedMap Int String) : Command :=
  .ofParts p.program (p.parts media destinations)

def args (p : Plan) (media : String) (destinations : OrderedMap Int String) : List String :=
  (p.command media destinations).args

end Plan

end Thumbnailer
