import Thumbnailer.Filter
import Thumbnailer.Interval
import Thumbnailer.Output.Groups
import Thumbnailer.Output.Names
import Thumbnailer.Output.Violation

/-!
# Compiling outputs into one graph

Outputs that take the same frames at the same size share the filters for it. A group of several outputs ends
in a split with one label for each; sprites are tiled behind it in statements of their own.
-/

namespace Thumbnailer

/-- The label of the video stream of the first input. -/
def sourceLabel : String := "0:v"

/-- Takes a frame once an interval has passed since the last one taken. -/
def selectFilter (interval : Int) : Filter where
  name := "select"
  args := [.text s!"bitor(gte(t-prev_selected_t\\,{Interval.text interval})\\,isnan(prev_selected_t))"]
  inputs := [sourceLabel]

/-- Scales frames to a size. Padding and cropping need a size that is given in full. -/
def scaleChain (s : Scale) : Chain :=
  let size := [.integer s.width, .integer s.height]
  let aspect (how : String) : OrderedMap String Argument := [("force_original_aspect_ratio", .text how)]
  match if s.isFixed then Behavior.ofCode? s.behavior else some .none with
  | some .fill =>
    [{ name := "scale", args := size, params := aspect "decrease" },
      { name := "pad", args := size ++ [.integer (-1), .integer (-1)], params := [("color", .text "black")] }]
  | some .crop =>
    [{ name := "scale", args := size, params := aspect "increase" }, { name := "crop", args := size }]
  | _ => [{ name := "scale", args := size }]

def tileFilter (o : Output) : Filter where
  name := "tile"
  args := [.text s!"{o.columns}x{o.rows}"]

def Chain.addOutput : Chain → String → Chain
  | [], _ => []
  | [f], label => [f.addOutput label]
  | f :: rest, label => f :: Chain.addOutput rest label

/-- An output with its index in a compiled list. -/
structure Entry where
  index : Int
  output : Output
deriving DecidableEq, Repr

namespace Entry

def names (e : Entry) : Names := e.output.names e.index

/-- The label that a split gives this output. -/
def splitLabel (e : Entry) : String :=
  if e.output.isSprites then e.names.input else e.names.output

/-- The statement that tiles the frames a split gives this output. -/
def tileStatement (e : Entry) : Chain :=
  [{ tileFilter e.output with inputs := [e.names.input], outputs := [e.names.output] }]

end Entry

/-- The statements of a group of outputs that share their frames. -/
def groupStatements : List Entry → Graph
  | [] => []
  | [e] =>
    let shared := selectFilter e.output.interval :: scaleChain e.output.scale
    let chain := if e.output.isSprites then shared ++ [tileFilter e.output] else shared
    [Chain.addOutput chain e.names.output]
  | e :: rest =>
    let members := e :: rest
    let shared := selectFilter e.output.interval :: scaleChain e.output.scale
    let split : Filter :=
      { name := "split", args := [.integer members.length], outputs := members.map Entry.splitLabel }
    (shared ++ [split]) :: (members.filter fun m => m.output.isSprites).map Entry.tileStatement

def graphOf (entries : List Entry) : Graph :=
  (groupOutputs Entry.output entries).flatMap fun byInterval =>
    byInterval.2.flatMap fun byScale => groupStatements byScale.2

def entriesOf (outputs : List Output) : List Entry :=
  outputs.zipIdx.map fun p => ⟨p.2, p.1⟩

def compile (outputs : List Output) : Except Violation Graph :=
  match violation? outputs with
  | some v => .error v
  | none => .ok (graphOf (entriesOf outputs))

end Thumbnailer
