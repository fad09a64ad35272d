import Thumbnailer.Output

/-!
# Names of outputs in a graph

A compiled output has an index and the labels it is fed from and mapped by.
-/

namespace Thumbnailer

/-- The index of an output and its labels; an output that was never compiled has none. -/
structure Names where
  index : Int := -1
  input : String := ""
  output : String := ""
deriving DecidableEq, Repr

/-- The names of an output with this index. Only sprites have an input label, for the frames they tile. -/
def Output.names (o : Output) (index : Int) : Names :=
  if o.isSprites then ⟨index, s!"sprites-{index}", s!"sprites-{index}-out"⟩
  else ⟨index, "", s!"thumbs-{index}-out"⟩

end Thumbnailer
