import Thumbnailer.Headers
import Thumbnailer.Text.Integer

/-!
# Commands

The argument list of an encoder run. Its parts stand in a fixed order, whatever order they are given in: the
program, options, inputs, the filter graph with the options that belong to it, mapped outputs and the address
for progress reports.
-/

namespace Thumbnailer

/-- A stream of the filter graph and where it goes. -/
structure Mapping where
  label : String
  destination : String
  options : List String := []
deriving DecidableEq, Repr

namespace Mapping

def args (m : Mapping) : List String :=
  ["-map", "[" ++ m.label ++ "]"] ++ m.options ++ [m.destination]

def withQuality (label destination : String) (quality : Int) : Mapping :=
  ⟨label, destination, if quality > 0 then ["-q:v", toString quality] else []⟩

end Mapping

inductive Part where
  | options (list : List String)
  | logLevel (level : String)
  | headers (hs : Headers)
  | input (path : String)
  | graph (text : String)
  /-- Frames keep their timestamps. -/
  | keepTimestamps
  | output (label destination : String) (quality : Int)
  | progress (address : String)
deriving DecidableEq, Repr

/-- The number in a part has not too many digits to be written. Only a positive quality is written at all. -/
def Part.isWritable : Part → Bool
  | .output _ _ quality => quality ≤ 0 || Text.isWritable quality
  | _ => true

def defaultProgressAddress : String := "pipe:1"

def defaultProgram : String := "ffmpeg"

/-- A command under construction. An empty graph or progress address counts as none. -/
structure Command where
  program : String := defaultProgram
  options : List String := []
  inputs : List String := []
  graph : String := ""
  graphOptions : List String := []
  outputs : List Mapping := []
  progress : String := ""
deriving DecidableEq, Repr

namespace Command

def optional (option value : String) : List String := if value.isEmpty then [] else [option, value]

def add (c : Command) : Part → Command
  | .options list => { c with options := c.options ++ list }
  | .logLevel level => { c with options := c.options ++ ["-loglevel", level] }
  | .headers hs =>
    if hs.isEmpty then c else { c with options := c.options ++ ["-headers", hs.text] }
  | .input path => { c with inputs := c.inputs ++ [path] }
  | .graph text => { c with graph := text }
  | .keepTimestamps => { c with graphOptions := c.graphOptions ++ ["-vsync", "0"] }
  | .output label destination quality =>
    { c with outputs := c.outputs ++ [.withQuality label destination quality] }
  | .progress address => { c with progress := address }

def ofParts (program : String) (parts : List Part) : Command := parts.foldl add { program }

theorem add_program (c : Command) (p : Part) : (c.add p).program = c.program := by
  cases p <;> simp [add]
  split <;> rfl

theorem foldl_add_program (parts : List Part) (c : Command) : (parts.foldl add c).program = c.program := by
  induction parts generalizing c with
  | nil => rfl
  | cons p rest ih => rw [List.foldl_cons, ih, c.add_program]

/-- Gives the command one more thing. If it cannot be written the command stays as it is. -/
def give (c : Command) (p : Part) : Except Text.IntegerError Unit × Command :=
  if p.isWritable then (.ok (), c.add p) else (.error .tooLarge, c)

/-- The command that is given parts one after the other, whatever comes of each. -/
def ofGiven (program : String) (parts : List Part) : Command := parts.foldl (fun c p => (c.give p).2) { program }

def args (c : Command) : List String :=
  c.program :: c.options ++ c.inputs.flatMap (["-i", ·]) ++ optional "-filter_complex" c.graph ++
    c.graphOptions ++ c.outputs.flatMap Mapping.args ++ optional "-progress" c.progress

end Command

end Thumbnailer
