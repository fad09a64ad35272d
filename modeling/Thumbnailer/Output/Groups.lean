import Thumbnailer.Output

/-!
# Groups of outputs

Outputs are grouped by their interval, and within an interval by their scale. Groups stand in the order in
which their first member is met, and members in the order of the list.
-/

namespace Thumbnailer

/-- Adds an item to the group of its key, or opens a new group at the end. -/
def addToGroup {κ α : Type} [BEq κ] (key : κ) (item : α) : List (κ × List α) → List (κ × List α)
  | [] => [(key, [item])]
  | (k, items) :: rest =>
    if k == key then (k, items ++ [item]) :: rest else (k, items) :: addToGroup key item rest

/-- Groups the items of a list by a key. -/
def groupBy {κ α : Type} [BEq κ] (key : α → κ) (items : List α) : List (κ × List α) :=
  items.foldl (fun groups item => addToGroup (key item) item groups) []

/-- Groups items by the interval of their output and then by its scale. -/
def groupOutputs {α : Type} (output : α → Output) (items : List α) :
    List (Int × List ((Int × Int × Int) × List α)) :=
  (groupBy (fun a => (output a).interval) items).map fun g =>
    (g.1, groupBy (fun a => (output a).scale.key) g.2)

end Thumbnailer
