import Thumbnailer.Number.Shortest
import Thumbnailer.OrderedMap

/-!
# Filters, chains and graphs

The filter graph language: filters with arguments and labels, chains of filters joined by commas, and graphs
of chains joined by semicolons.
-/

namespace Thumbnailer

inductive Argument where
  | text (s : String)
  | integer (n : Int)
  | decimal (x : Double)
deriving DecidableEq, Repr

def Argument.written : Argument → String
  | .text s => s
  | .integer n => toString n
  | .decimal x => x.text

/-- A filter: positional arguments stand before named ones, labels of inputs before and of outputs behind. -/
structure Filter where
  name : String
  args : List Argument := []
  params : OrderedMap String Argument := []
  inputs : List String := []
  outputs : List String := []
deriving DecidableEq, Repr

def labels (ls : List String) : String := String.join (ls.map fun l => "[" ++ l ++ "]")

namespace Filter

def values (f : Filter) : List String :=
  f.args.map Argument.written ++ f.params.map fun p => p.1 ++ "=" ++ p.2.written

def body (f : Filter) : String :=
  if f.values.isEmpty then f.name else f.name ++ "=" ++ ":".intercalate f.values

def text (f : Filter) : String := labels f.inputs ++ f.body ++ labels f.outputs

def addOutput (f : Filter) (label : String) : Filter := { f with outputs := f.outputs ++ [label] }

end Filter

/-- Filters, each of which feeds the next. -/
abbrev Chain := List Filter

def Chain.text (c : Chain) : String := ",".intercalate (c.map Filter.text)

/-- The statements of a filter graph. -/
abbrev Graph := List Chain

/-- The statements that hold a filter, joined by semicolons. -/
def Graph.text (g : Graph) : String :=
  ";".intercalate ((g.filter fun c => !c.isEmpty).map Chain.text)

end Thumbnailer
