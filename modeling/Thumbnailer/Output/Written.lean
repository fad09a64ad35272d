import Thumbnailer.Output.Slots
import Thumbnailer.Plan

/-!
# Writing the graph of slots

The slots of a list get their indices first, and their labels bucket by bucket; the statements of a bucket are made of
the labels that its slots hold then. A number with too many digits cannot be written. If it is the size of a grid,
nothing more is named, and slots of later buckets keep the labels they had.
-/

namespace Thumbnailer

def Output.gridNumbers (o : Output) : List Int := if o.isSprites then [o.columns, o.rows] else []

namespace Slot

def splitLabel (s : Slot) : String := if s.output.isSprites then s.names.input else s.names.output

def tileStatement (s : Slot) : Chain :=
  [{ tileFilter s.output with inputs := [s.names.input], outputs := [s.names.output] }]

def statements : List Slot → Graph
  | [] => []
  | [s] =>
    let shared := selectFilter s.output.interval :: scaleChain s.output.scale
    let chain := if s.output.isSprites then shared ++ [tileFilter s.output] else shared
    [Chain.addOutput chain s.names.output]
  | s :: rest =>
    let members := s :: rest
    let shared := selectFilter s.output.interval :: scaleChain s.output.scale
    let split : Filter :=
      { name := "split", args := [.integer members.length], outputs := members.map splitLabel }
    (shared ++ [split]) :: (members.filter fun m => m.output.isSprites).map tileStatement

end Slot

namespace Slots

/-- Gives slots their indices, from one position on. -/
def number (slots : Slots) (position : Nat) : List Nat → Slots
  | [] => slots
  | i :: rest =>
    number (List.modify slots i fun s => { s with names := { s.names with index := position } }) (position + 1) rest

/-- Gives slots the labels that belong to their indices. -/
def label (slots : Slots) (members : List Nat) : Slots := members.foldl assignNames slots

def listed (slots : Slots) (order : List Nat) : List (Nat × Output) :=
  order.filterMap fun i => slots[i]?.map fun s => (i, s.output)

/-- The buckets of the slots that a list names. -/
def bucketsOf (slots : Slots) (order : List Nat) : List (List Nat) :=
  (groupOutputs Prod.snd (slots.listed order)).flatMap fun byInterval =>
    byInterval.2.map fun byScale => byScale.2.map Prod.fst

/-- Labels slots bucket by bucket and makes their statements, up to a grid that cannot be written. -/
def build (slots : Slots) : List (List Nat) → Option Graph × Slots
  | [] => (some [], slots)
  | bucket :: rest =>
    let labelled := slots.label bucket
    let members := bucket.filterMap fun i => labelled[i]?
    if members.all fun s => s.output.gridNumbers.all Text.isWritable then
      let built := labelled.build rest
      (built.1.map (Slot.statements members ++ ·), built.2)
    else (none, labelled)

/-- Compiles the slots that a list names and writes their graph. -/
def write (slots : Slots) (order : List Nat) : Except PlanError String × Slots :=
  match violation? (slots.outputsOf order) with
  | some v => (.error (.ofViolation v), slots)
  | none =>
    let numbered := slots.number 0 order
    match numbered.build (numbered.bucketsOf order) with
    | (none, after) => (.error .unwritable, after)
    | (some g, after) =>
      if (slots.outputsOf order).all fun o => [o.scale.width, o.scale.height].all Text.isWritable then
        (.ok g.text, after)
      else (.error .unwritable, after)

end Slots

end Thumbnailer
