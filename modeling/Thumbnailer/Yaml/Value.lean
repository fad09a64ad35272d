import Thumbnailer.OrderedMap
import Thumbnailer.Text.Lines
import Thumbnailer.Yaml.Merge
import Thumbnailer.Yaml.Scalar

/-!
# Values

What the nodes of a document mean. Values are made from the outside in: a container is there before what it
holds, so it may hold itself, and of several faults the one nearest to the outside counts.
-/

namespace Thumbnailer.Yaml

/-- A value; containers hold the numbers of other values. -/
inductive Value where
  | scalar (s : Scalar)
  | list (items : List Nat)
  /-- Pairs in order, also with equal first parts. -/
  | pairs (entries : List (Nat × Nat))
  | set (keys : List Scalar)
  | mapping (entries : List (Scalar × Nat))
deriving DecidableEq, Repr

/-- Values in the making. -/
structure Building where
  nodes : Nodes
  /-- The values that have been begun, by the numbers of their nodes. -/
  values : Array (Option Value)
  /-- The containers that have been begun and not been filled. -/
  pending : List Nat := []

namespace Building

/-- The text of a scalar. A mapping with a default value can stand for a scalar, too. -/
def textOf (b : Building) (fuel : Nat) (n : Nat) : Except Fault String :=
  match fuel with
  | 0 => .error .malformed
  | fuel + 1 =>
    match b.nodes.node? n with
    | some (.scalar _ text) => .ok text
    | some (.mapping _ entries) =>
      match entries.find? fun e => b.nodes.tag e.1 = .default with
      | some (_, value) => textOf b fuel value
      | none => .error .malformed
    | _ => .error .malformed

/-- The container that a tag announces, while it is empty. -/
def emptyContainer? (tag : Tag) : Option Value :=
  match tag with
  | .sequence => some (.list [])
  | .orderedMap | .pairs => some (.pairs [])
  | .set => some (.set [])
  | .mapping => some (.mapping [])
  | _ => none

def setValue (b : Building) (n : Nat) (v : Value) : Building :=
  { b with values := b.values.setIfInBounds n (some v) }

/-- Begins the value of a node, unless it has been begun. -/
def visit (b : Building) (n : Nat) : Except Fault (Value × Building) := do
  match b.values[n]?.join with
  | some v => return (v, b)
  | none =>
    let tag := b.nodes.tag n
    match emptyContainer? tag with
    | some v => return (v, { b.setValue n v with pending := b.pending ++ [n] })
    | none =>
      let read (text : String) : Except Fault Scalar := (Scalar.ofText? tag text).getD (.error .malformed)
      let s ←
        match b.nodes.node? n with
        | some (.scalar _ text) => read text
        | _ => read (← b.textOf (b.nodes.size + 1) n)
      return (.scalar s, b.setValue n (.scalar s))

/-- Begins the value of a key, which must be a scalar. -/
def visitKey (b : Building) (n : Nat) : Except Fault (Scalar × Building) := do
  match ← b.visit n with
  | (.scalar s, b) => return (s, b)
  | _ => throw .malformed

/-- The key under which an equal one has been written, or the key itself. -/
def firstKey (entries : List (Scalar × Nat)) (key : Scalar) : Scalar :=
  ((entries.find? fun e => e.1.sameKey key).map (·.1)).getD key

/-- Begins keys and values one after the other; of equal keys the first place and the last value count. -/
def visitEntries (b : Building) (made : List (Scalar × Nat)) :
    List (Nat × Nat) → Except Fault (List (Scalar × Nat) × Building)
  | [] => .ok (made, b)
  | (key, value) :: rest => do
    let (key, b) ← b.visitKey key
    let (_, b) ← b.visit value
    visitEntries b (OrderedMap.insert made (firstKey made key) value) rest

/-- Begins the parts of pairs, each of which is written as a mapping with one entry. -/
def visitPairs (b : Building) (made : List (Nat × Nat)) : List Nat → Except Fault (List (Nat × Nat) × Building)
  | [] => .ok (made, b)
  | item :: rest => do
    match b.nodes.node? item with
    | some (.mapping _ [(key, value)]) =>
      let (_, b) ← b.visit key
      let (_, b) ← b.visit value
      visitPairs b (made ++ [(key, value)]) rest
    | _ => throw .malformed

/-- The entries of a mapping node with merged ones. -/
def flattened (b : Building) (n : Nat) : Except Fault (List (Scalar × Nat) × Building) := do
  match b.nodes.node? n with
  | some (.mapping ..) =>
    let nodes ← b.nodes.flatten n
    visitEntries { b with nodes } [] (nodes.entries n)
  | _ => throw .malformed

def fill (b : Building) (n : Nat) : Except Fault Building := do
  match b.values[n]?.join with
  | some (.list _) =>
    match b.nodes.node? n with
    | some (.sequence _ items) =>
      let b ← items.foldlM (fun b item => return (← visit b item).2) b
      return b.setValue n (.list items)
    | _ => throw .malformed
  | some (.pairs _) =>
    match b.nodes.node? n with
    | some (.sequence _ items) =>
      let (entries, b) ← b.visitPairs [] items
      return b.setValue n (.pairs entries)
    | _ => throw .malformed
  | some (.set _) =>
    let (entries, b) ← b.flattened n
    return b.setValue n (.set (entries.map (·.1)))
  | some (.mapping _) =>
    let (entries, b) ← b.flattened n
    return b.setValue n (.mapping entries)
  | _ => return b

/-- Fills all containers in the order in which they were begun. Each is begun once, so the count of nodes is fuel
enough. -/
def fillAll (fuel : Nat) (b : Building) : Except Fault Building :=
  match fuel with
  | 0 => .ok b
  | fuel + 1 =>
    match b.pending with
    | [] => .ok b
    | n :: rest => do fillAll fuel (← fill { b with pending := rest } n)

end Building

/-! ## Whole texts -/

/-- The values of a text by their numbers, and the number of the outermost one. -/
structure Values where
  table : Array (Option Value)
  root : Nat

namespace Values

def get (vs : Values) (n : Nat) : Value := (vs.table[n]?.join).getD (.scalar .null)

def empty : Values := ⟨#[], 0⟩

def top (vs : Values) : Value := vs.get vs.root

def ofDocument (d : Document) : Except Fault Values := do
  let b : Building := { nodes := d.nodes, values := Array.replicate d.nodes.size none }
  let (_, b) ← b.visit d.root
  let b ← b.fillAll (d.nodes.size + 1)
  return ⟨b.values, d.root⟩

end Values

/-- A character that a text may hold: no control character but a few, and none of the two that end a plane. -/
def isAllowed (c : Char) : Bool :=
  c == '\t' || c == '\n' || c == '\r' || (' ' ≤ c && c ≤ '~') || c == '\x85' ||
    ('\xa0' ≤ c && c != '\ufffe' && c != '\uffff')

def Values.read (text : List Char) : Except Fault Values := do
  let text := Text.unifyNewlines text
  if !text.all isAllowed then throw .malformed
  match ← Document.ofTokens (Tokens.ofText text) with
  | none => return .empty
  | some d => Values.ofDocument d

end Thumbnailer.Yaml
