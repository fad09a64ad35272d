import Thumbnailer.Yaml.Block
import Thumbnailer.Yaml.Plain
import Thumbnailer.Yaml.Property

/-!
# Cutting a text into tokens

Inside brackets only the brackets count; outside them the indentation opens and closes blocks. A key without a mark
of its own is noticed when the colon behind it is met, which must stand on the same line and not too far away;
the mark and, for the first key of a block, the beginning of the block are then put before it.
-/

namespace Thumbnailer.Yaml

/-- The farthest that a colon may stand behind the beginning of its key. -/
def keyLimit : Nat := 1024

/-- A place where a key may turn out to begin. -/
structure PossibleKey where
  /-- How many tokens stand before it. -/
  number : Nat
  /-- Only a key can stand there. -/
  required : Bool
  start : Cursor

/-- A text in the course of being cut. -/
structure Reader where
  cursor : Cursor
  /-- How many brackets are open; below zero if more were closed than opened. -/
  level : Int := 0
  /-- The column of the innermost block, and those of the blocks around it. -/
  indent : Int := -1
  outer : List Int := []
  /-- A key without a mark may begin here. -/
  mayStartKey : Bool := true
  /-- Where a key may have begun, at most one place for each level of brackets. -/
  keys : List (Int × PossibleKey) := []
  tokens : Array Token := #[]
  ended : Bool := false

namespace Reader

def inBlock (r : Reader) : Bool := r.level == 0

def push (r : Reader) (t : Token) : Reader := { r with tokens := r.tokens.push t }

def take (r : Reader) (count : Nat) (t : Token) : Reader := { r.push t with cursor := r.cursor.skip count }

/-! ## Blocks -/

/-- The blocks that are left when those deeper than a column are closed, and how many are closed. -/
def closeTo (column indent : Int) : List Int → Nat × Int × List Int
  | [] => (0, indent, [])
  | above :: outer =>
    if indent > column then
      let (count, indent, outer) := closeTo column above outer
      (count + 1, indent, outer)
    else (0, indent, above :: outer)

def closeBlocks (r : Reader) (column : Int) : Reader :=
  if r.inBlock then
    let (count, indent, outer) := closeTo column r.indent r.outer
    { r with indent, outer, tokens := r.tokens ++ Array.replicate count .blockEnd }
  else r

/-- Opens a block at a column outside brackets, unless one is open there, and puts its beginning before the token
with a number. -/
def openBlock (r : Reader) (column : Int) (number : Nat) (t : Token) : Reader :=
  if r.inBlock && r.indent < column then
    { r with indent := column, outer := r.indent :: r.outer, tokens := r.tokens.insertIdxIfInBounds number t }
  else r

/-! ## Possible keys -/

def key? (r : Reader) : Option PossibleKey := r.keys.lookup r.level

/-- Gives up the possible key inside the innermost brackets, which must not be required. -/
def dropKey (r : Reader) : Except Fault Reader :=
  if r.key?.any (·.required) then .error .malformed
  else .ok { r with keys := r.keys.filter fun k => k.1 != r.level }

/-- The colon can no longer follow. -/
def isStale (r : Reader) (k : PossibleKey) : Bool :=
  k.start.line != r.cursor.line || r.cursor.index - k.start.index > keyLimit

/-- Gives up the possible keys whose colon can no longer follow. -/
def dropStale (r : Reader) : Except Fault Reader :=
  if r.keys.any fun k => k.2.required && r.isStale k.2 then .error .malformed
  else .ok { r with keys := r.keys.filter fun k => !r.isStale k.2 }

/-- Notes that a key may begin here. -/
def noteKey (r : Reader) : Except Fault Reader :=
  if r.mayStartKey then do
    let required := r.inBlock && r.indent == r.cursor.column
    let r ← r.dropKey
    return { r with keys := (r.level, ⟨r.tokens.size, required, r.cursor⟩) :: r.keys }
  else .ok r

/-- How many tokens are sure: before the first possible key nothing can be put any more. -/
def sure (r : Reader) : Nat :=
  match r.dropStale with
  | .ok r => r.keys.foldl (fun n k => min n k.2.number) r.tokens.size
  | .error _ => 0

/-! ## Single tokens -/

/-- Skips what stands between tokens: spaces, comments and line breaks. -/
def skipBetween (fuel : Nat) (r : Reader) : Reader :=
  match fuel with
  | 0 => r
  | fuel + 1 =>
    let c := r.cursor.skipSpaces
    let c := if c.peek == '#' then c.skipLine else c
    if isBreak c.peek then
      skipBetween fuel { r with cursor := c.next, mayStartKey := r.mayStartKey || r.inBlock }
    else { r with cursor := c }

/-- Takes a token that ends all blocks. -/
def outside (r : Reader) (mayStartKey : Bool) : Except Fault Reader := do
  let r ← (r.closeBlocks (-1)).dropKey
  return { r with mayStartKey }

def takeEnd (r : Reader) : Except Fault Reader := do
  let r ← r.outside false
  return { r.push .textEnd with keys := [], ended := true }

def takeDirective (r : Reader) : Except Fault Reader := do
  let r ← r.outside false
  let (d, cursor) ← readDirective r.cursor
  return { r.push (.directive d) with cursor }

def takeSeparator (r : Reader) (t : Token) : Except Fault Reader := do
  return (← r.outside false).take 3 t

def takeOpening (r : Reader) (t : Token) : Except Fault Reader := do
  let r ← r.noteKey
  return { r.take 1 t with level := r.level + 1, mayStartKey := true }

def takeClosing (r : Reader) (t : Token) : Except Fault Reader := do
  let r ← r.dropKey
  return { r.take 1 t with level := r.level - 1, mayStartKey := false }

def takeComma (r : Reader) : Except Fault Reader := do
  return { (← r.dropKey).take 1 .comma with mayStartKey := true }

/-- Opens a block here if need be, where one may begin. -/
def beginBlock (r : Reader) (t : Token) : Except Fault Reader :=
  if r.inBlock && !r.mayStartKey then .error .malformed
  else .ok (r.openBlock r.cursor.column r.tokens.size t)

def takeItem (r : Reader) : Except Fault Reader := do
  let r ← (← r.beginBlock .blockSequence).dropKey
  return { r.take 1 .item with mayStartKey := true }

def takeKey (r : Reader) : Except Fault Reader := do
  let r ← (← r.beginBlock .blockMapping).dropKey
  return { r.take 1 .key with mayStartKey := r.inBlock }

def takeValue (r : Reader) : Except Fault Reader := do
  match r.key? with
  | some k =>
    let r := { r with
      keys := r.keys.filter fun k => k.1 != r.level
      tokens := r.tokens.insertIdxIfInBounds k.number .key
      mayStartKey := false }
    return (r.openBlock k.start.column k.number .blockMapping).take 1 .value
  | none =>
    let r ← (← r.beginBlock .blockMapping).dropKey
    return { r.take 1 .value with mayStartKey := r.inBlock }

def takeNode {α : Type} (r : Reader) (read : Cursor → Except Fault (α × Cursor)) (token : α → Token) :
    Except Fault Reader := do
  let r ← r.noteKey
  let (a, cursor) ← read r.cursor
  return { r.push (token a) with cursor, mayStartKey := false }

def takeBlockScalar (r : Reader) : Except Fault Reader := do
  let r ← r.dropKey
  let (text, cursor) ← readBlock r.indent r.cursor
  return { r.push (.scalar text false) with cursor, mayStartKey := true }

def takePlain (r : Reader) : Except Fault Reader := do
  let r ← r.noteKey
  let (text, ended, cursor) := readPlain (!r.inBlock) r.indent r.cursor
  return { r.push (.scalar text true) with cursor, mayStartKey := ended }

/-- A plain scalar may begin with the character; `ahead` is the one behind it. -/
def startsPlain (flow : Bool) (c ahead : Char) : Bool :=
  if endsToken c || "-?:,[]\x7b\x7d#&*!|>\x27\"%@\x60".toList.contains c then
    !endsToken ahead && (c == '-' || (!flow && (c == '?' || c == ':')))
  else true

/-- Takes the next token and those that only the indentation shows before it. -/
@[irreducible]
def next (r : Reader) : Except Fault Reader := do
  let r := if r.cursor.index == 0 && r.cursor.peek == byteOrderMark then { r with cursor := r.cursor.next } else r
  let r ← (r.skipBetween (r.cursor.rest.length + 1)).dropStale
  let c := r.cursor
  let r := r.closeBlocks c.column
  let ch := c.peek
  let indicates := !r.inBlock || endsToken (c.ahead 1)
  if c.atEnd then r.takeEnd
  else if ch == '%' && c.column == 0 then r.takeDirective
  else if c.column == 0 && c.atMark '-' then r.takeSeparator .documentStart
  else if c.column == 0 && c.atMark '.' then r.takeSeparator .documentEnd
  else if ch == '[' then r.takeOpening .flowSequence
  else if ch == '\x7b' then r.takeOpening .flowMapping
  else if ch == ']' then r.takeClosing .flowSequenceEnd
  else if ch == '\x7d' then r.takeClosing .flowMappingEnd
  else if ch == ',' then r.takeComma
  else if ch == '-' && endsToken (c.ahead 1) then r.takeItem
  else if ch == '?' && indicates then r.takeKey
  else if ch == ':' && indicates then r.takeValue
  else if ch == '*' then r.takeNode readAnchor .alias
  else if ch == '&' then r.takeNode readAnchor .anchor
  else if ch == '!' then r.takeNode readTag .tag
  else if (ch == '|' || ch == '>') && r.inBlock then r.takeBlockScalar
  else if ch == '\x27' || ch == '"' then r.takeNode readQuoted fun text => .scalar text false
  else if startsPlain (!r.inBlock) ch (c.ahead 1) then r.takePlain
  else throw .malformed

end Reader

/-! ## Whole texts -/

/-- The tokens of a text, up to a fault if there is one. -/
structure Tokens where
  list : List Token
  fault : Option Fault

/-- Takes tokens until the text ends or a fault is met. -/
def Reader.finish (fuel : Nat) (r : Reader) : Tokens :=
  match fuel with
  | 0 => ⟨r.tokens.toList, some .malformed⟩
  | fuel + 1 =>
    if r.ended then ⟨r.tokens.toList, none⟩
    else
      match r.next with
      | .ok r => finish fuel r
      | .error f => ⟨r.tokens.toList.take r.sure, some f⟩

/-- Cuts a text into tokens. Every token but the last takes a character of the text. -/
def Tokens.ofText (text : List Char) : Tokens := Reader.finish (text.length + 2) { cursor := ⟨text, 0, 0, 0⟩ }

end Thumbnailer.Yaml
