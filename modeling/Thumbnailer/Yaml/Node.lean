import Thumbnailer.Yaml.Tag
import Thumbnailer.Yaml.Tokens

/-!
# Nodes

A document is a graph of scalars, sequences and mappings. A node that has an anchor can be referred to from
several places, also from inside itself, so nodes are numbered and refer to each other by their numbers.
-/

namespace Thumbnailer.Yaml

inductive Node where
  | scalar (tag : Tag) (text : String)
  | sequence (tag : Tag) (items : List Nat)
  | mapping (tag : Tag) (entries : List (Nat × Nat))
deriving DecidableEq, Repr

/-- Nodes by their numbers, and the number of the outermost one. -/
structure Document where
  nodes : Array Node
  root : Nat
deriving Repr

/-- A document in the course of being put together from tokens. -/
structure Composition where
  rest : List Token
  /-- Why no more tokens follow. -/
  fault : Fault
  /-- What the tag handles stand for. -/
  handles : List (String × String) := []
  anchors : List (String × Nat) := []
  nodes : Array Node := #[]

/-- A step in putting a document together. -/
abbrev Composing := StateT Composition (Except Fault)

/-- The tag handles that need no directive. -/
def usualHandles : List (String × String) := [("!", "!"), ("!!", Tag.space)]

/-- The tag that leaves it to the node what it is. -/
def openTag : String := "!"

namespace Composing

def peek : Composing Token := do
  let s ← get
  match s.rest with
  | t :: _ => return t
  | [] => throw s.fault

def skip : Composing Unit := modify fun s => { s with rest := s.rest.tail }

def at? (ts : List Token) : Composing Bool := return ts.contains (← peek)

/-- Adds a node, which can be referred to by its anchor. -/
def add (anchor : Option String) (n : Node) : Composing Nat := do
  let s ← get
  let number := s.nodes.size
  match anchor with
  | none => set { s with nodes := s.nodes.push n }
  | some name =>
    if (s.anchors.lookup name).isSome then throw .malformed
    set { s with nodes := s.nodes.push n, anchors := (name, number) :: s.anchors }
  return number

def fill (number : Nat) (n : Node) : Composing Nat := do
  modify fun s => { s with nodes := s.nodes.setIfInBounds number n }
  return number

/-- A node for a place where nothing is written. -/
def addNothing : Composing Nat := add none (.scalar .null "")

/-- The full name of a tag. -/
def tagName (written : WrittenTag) : Composing String := do
  match written.handle with
  | none => return written.rest
  | some handle =>
    match (← get).handles.lookup handle with
    | some text => return text ++ written.rest
    | none => throw .malformed

def anchor? : Composing (Option String) := do
  match ← peek with
  | .anchor name => skip; return some name
  | _ => return none

def tag? : Composing (Option WrittenTag) := do
  match ← peek with
  | .tag written => skip; return some written
  | _ => return none

/-- Reads an anchor and a tag in either order, as far as they are there. -/
def properties : Composing (Option String × Option String) := do
  let before ← anchor?
  let written ← tag?
  let behind ← if before.isNone && written.isSome then anchor? else pure none
  match written with
  | none => return (before, none)
  | some written => return (before.or behind, some (← tagName written))

/-- The tag with a name, or a given one where no tag tells. -/
def tagOr (usual : Tag) (name : Option String) : Tag :=
  match name with
  | none => usual
  | some name => if name = openTag then usual else Tag.ofName name

/-- The tag of a scalar: a plain one is known by its text, and so is one with the open tag. -/
def scalarTag (name : Option String) (text : String) (plain : Bool) : Tag :=
  if plain || name.isSome then tagOr (Tag.ofPlain text) name else .text

mutual

/-- Reads a node. Outside brackets it may be a block, and where `flush` tells so the items of a sequence may stand
in the column of the block around it. -/
def node (fuel : Nat) (block flush : Bool) : Composing Nat :=
  match fuel with
  | 0 => throw .malformed
  | fuel + 1 => do
    if let .alias name ← peek then
      skip
      match (← get).anchors.lookup name with
      | some number => return number
      | none => throw .malformed
    let (anchor, tag) ← properties
    let asSequence (items : Composing (List Nat)) : Composing Nat := do
      let tag := tagOr .sequence tag
      let number ← add anchor (.sequence tag [])
      fill number (.sequence tag (← items))
    let asMapping (entries : Composing (List (Nat × Nat))) : Composing Nat := do
      let tag := tagOr .mapping tag
      let number ← add anchor (.mapping tag [])
      fill number (.mapping tag (← entries))
    match ← peek, block, flush with
    | .item, _, true => asSequence (flushItems fuel)
    | .scalar text plain, _, _ =>
      skip
      add anchor (.scalar (scalarTag tag text plain) text)
    | .flowSequence, _, _ => asSequence do skip; flowItems fuel true
    | .flowMapping, _, _ => asMapping do skip; flowEntries fuel true
    | .blockSequence, true, _ => asSequence do skip; blockItems fuel
    | .blockMapping, true, _ => asMapping do skip; blockEntries fuel
    | _, _, _ =>
      if anchor.isNone && tag.isNone then throw .malformed
      add anchor (.scalar (tagOr .null tag) "")

/-- Reads a node, or nothing if one of some tokens follows. -/
def nodeUnless (fuel : Nat) (stops : List Token) (block flush : Bool) : Composing Nat :=
  match fuel with
  | 0 => throw .malformed
  | fuel + 1 => do
    if ← at? stops then addNothing else node fuel block flush

def blockItems (fuel : Nat) : Composing (List Nat) :=
  match fuel with
  | 0 => throw .malformed
  | fuel + 1 => do
    match ← peek with
    | .item =>
      skip
      let item ← nodeUnless fuel [.item, .blockEnd] true false
      return item :: (← blockItems fuel)
    | .blockEnd => skip; return []
    | _ => throw .malformed

/-- Reads items as long as there are some. -/
def flushItems (fuel : Nat) : Composing (List Nat) :=
  match fuel with
  | 0 => throw .malformed
  | fuel + 1 => do
    match ← peek with
    | .item =>
      skip
      let item ← nodeUnless fuel [.item, .key, .value, .blockEnd] true false
      return item :: (← flushItems fuel)
    | _ => return []

def blockEntries (fuel : Nat) : Composing (List (Nat × Nat)) :=
  match fuel with
  | 0 => throw .malformed
  | fuel + 1 => do
    let stops := [Token.key, .value, .blockEnd]
    match ← peek with
    | .key =>
      skip
      let key ← nodeUnless fuel stops true true
      let value ← valueUnless fuel stops true
      return (key, value) :: (← blockEntries fuel)
    | .blockEnd => skip; return []
    | _ => throw .malformed

/-- Reads the value behind a key; it may be missing, with or without its mark. -/
def valueUnless (fuel : Nat) (stops : List Token) (block : Bool) : Composing Nat :=
  match fuel with
  | 0 => throw .malformed
  | fuel + 1 => do
    if ← at? [.value] then
      skip
      nodeUnless fuel stops block block
    else addNothing

/-- Reads what stands between brackets, with commas between the items. An item may be a single entry of a
mapping. -/
def flowItems (fuel : Nat) (first : Bool) : Composing (List Nat) :=
  match fuel with
  | 0 => throw .malformed
  | fuel + 1 => do
    if ← at? [.flowSequenceEnd] then
      skip
      return []
    if !first then
      if ← at? [.comma] then skip else throw .malformed
    let stops := [Token.comma, .flowSequenceEnd]
    match ← peek with
    | .key =>
      let number ← add none (.mapping .mapping [])
      skip
      let key ← nodeUnless fuel (.value :: stops) false false
      let value ← valueUnless fuel stops false
      let item ← fill number (.mapping .mapping [(key, value)])
      return item :: (← flowItems fuel false)
    | .flowSequenceEnd => skip; return []
    | _ =>
      let item ← node fuel false false
      return item :: (← flowItems fuel false)

/-- Reads the entries between brackets, with commas between them. A key may stand alone. -/
def flowEntries (fuel : Nat) (first : Bool) : Composing (List (Nat × Nat)) :=
  match fuel with
  | 0 => throw .malformed
  | fuel + 1 => do
    if ← at? [.flowMappingEnd] then
      skip
      return []
    if !first then
      if ← at? [.comma] then skip else throw .malformed
    let stops := [Token.comma, .flowMappingEnd]
    match ← peek with
    | .key =>
      skip
      let key ← nodeUnless fuel (.value :: stops) false false
      let value ← valueUnless fuel stops false
      return (key, value) :: (← flowEntries fuel false)
    | .flowMappingEnd => skip; return []
    | _ =>
      let key ← node fuel false false
      let value ← addNothing
      return (key, value) :: (← flowEntries fuel false)

end

/-! ## Documents -/

/-- Reads directives: at most one for the version, whose first number is one, and at most one for each handle. -/
def directives (fuel : Nat) (versioned : Bool) (handles : List (String × String)) :
    Composing (List (String × String)) :=
  match fuel with
  | 0 => throw .malformed
  | fuel + 1 => do
    match ← peek with
    | .directive d =>
      skip
      match d with
      | .version major _ =>
        if versioned || major != 1 then throw .malformed
        directives fuel true handles
      | .handle name text =>
        if (handles.lookup name).isSome then throw .malformed
        directives fuel versioned ((name, text) :: handles)
      | .other => directives fuel versioned handles
    | _ => return handles

/-- Reads the beginning of a document: the directives and the mark behind them. -/
def beginning (fuel : Nat) : Composing Unit := do
  let handles ← directives fuel false []
  if ← at? [.documentStart] then
    skip
    modify fun s => { s with handles := handles ++ usualHandles }
  else throw .malformed

/-- Skips the marks behind a document. -/
def skipEnds (fuel : Nat) : Composing Unit :=
  match fuel with
  | 0 => throw .malformed
  | fuel + 1 => do
    if ← at? [.documentEnd] then
      skip
      skipEnds fuel

/-- The text ends here: no second document follows. -/
def ending (fuel : Nat) : Composing Unit := do
  skipEnds fuel
  if !(← at? [.textEnd]) then
    beginning fuel
    throw .malformed

/-- Reads the only document, if there is one. -/
def document (fuel : Nat) : Composing (Option Nat) := do
  let root? ←
    match ← peek with
    | .textEnd => return none
    | .documentStart | .directive _ =>
      beginning fuel
      match ← peek with
      | .directive _ | .documentStart | .documentEnd | .textEnd => addNothing
      | _ => node fuel true false
    | _ =>
      modify fun s => { s with handles := usualHandles }
      node fuel true false
  ending fuel
  return some root?

end Composing

/-- The document that tokens make; an empty text has none. A token is looked at in three steps at most. -/
def Document.ofTokens (ts : Tokens) : Except Fault (Option Document) :=
  let start : Composition := { rest := ts.list, fault := ts.fault.getD .malformed }
  match (Composing.document (3 * ts.list.length + 3)).run start with
  | .ok (some root, s) => .ok (some ⟨s.nodes, root⟩)
  | .ok (none, _) => .ok none
  | .error f => .error f

end Thumbnailer.Yaml
