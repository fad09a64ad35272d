import Thumbnailer.Yaml.Node

/-!
# Merging mappings

The value of a merge key is a mapping or a list of mappings whose entries are put before the other entries of the
mapping, so that these win; of several mappings in a list the first one wins.
-/

namespace Thumbnailer.Yaml

abbrev Nodes := Array Node

namespace Nodes

def node? (ns : Nodes) (n : Nat) : Option Node := ns[n]?

def tag (ns : Nodes) (n : Nat) : Tag :=
  match ns.node? n with
  | some (.scalar tag _) => tag
  | some (.sequence tag _) => tag
  | some (.mapping tag _) => tag
  | none => .other

def entries (ns : Nodes) (n : Nat) : List (Nat × Nat) :=
  match ns.node? n with
  | some (.mapping _ entries) => entries
  | _ => []

def setEntries (ns : Nodes) (n : Nat) (entries : List (Nat × Nat)) : Nodes :=
  ns.setIfInBounds n (.mapping (ns.tag n) entries)

/-- The key stands for a value to be merged. -/
def isMerge (ns : Nodes) (entry : Nat × Nat) : Bool := ns.tag entry.1 = .merge

/-- How many keys of all mappings stand for values to be merged. -/
def mergeCount (ns : Nodes) : Nat :=
  ns.foldl (fun count n =>
    match n with
    | .mapping _ entries => count + (entries.filter ns.isMerge).length
    | _ => count) 0

/-- A key that may stand for the whole mapping is a text in a mapping that is used as one. -/
def plainKey (ns : Nodes) (n : Nat) : Nodes :=
  match ns.node? n with
  | some (.scalar .default text) => ns.setIfInBounds n (.scalar .text text)
  | some (.sequence .default items) => ns.setIfInBounds n (.sequence .text items)
  | some (.mapping .default entries) => ns.setIfInBounds n (.mapping .text entries)
  | _ => ns

/-- Takes the merge keys of a mapping out one by one; `merged` are the entries that they have given so far. Each
merge key is taken out once, so their count is fuel enough. -/
def flattenWithin (fuel : Nat) (merged : List (Nat × Nat)) (n : Nat) (ns : Nodes) : Except Fault Nodes :=
  match fuel with
  | 0 => .error .malformed
  | fuel + 1 => do
    let entries := ns.entries n
    let before := entries.takeWhile fun e => !ns.isMerge e
    match entries.drop before.length with
    | [] =>
      let entries := merged ++ entries
      return entries.foldl (fun ns e => ns.plainKey e.1) (ns.setEntries n entries)
    | (_, value) :: behind =>
      let ns := ns.setEntries n (before ++ behind)
      match ns.node? value with
      | some (.mapping ..) =>
        let ns ← flattenWithin fuel [] value ns
        flattenWithin fuel (merged ++ ns.entries value) n ns
      | some (.sequence _ items) =>
        let (ns, given) ← items.foldlM (fun (ns, given) item => do
          match ns.node? item with
          | some (.mapping ..) =>
            let ns ← flattenWithin fuel [] item ns
            return (ns, ns.entries item ++ given)
          | _ => throw .malformed) (ns, [])
        flattenWithin fuel (merged ++ given) n ns
      | _ => throw .malformed

/-- Puts the entries of merged mappings in place of the merge keys of a mapping. -/
def flatten (ns : Nodes) (n : Nat) : Except Fault Nodes := flattenWithin (ns.mergeCount + 1) [] n ns

end Nodes

end Thumbnailer.Yaml
