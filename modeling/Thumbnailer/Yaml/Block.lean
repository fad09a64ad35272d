import Thumbnailer.Yaml.Cursor

/-!
# Block scalars

A block scalar holds the lines below its header that are indented deeply enough. Literal scalars keep their line
breaks; folded ones join lines that do not begin with a blank.
-/

namespace Thumbnailer.Yaml

/-- What becomes of the line breaks at the end of a block scalar. -/
inductive Chomping where
  /-- One is kept. -/
  | clip
  | keep
  | strip
deriving DecidableEq, Repr

structure BlockHeader where
  chomping : Chomping
  /-- The columns by which the lines are indented, if they are given. -/
  increment : Option Nat

/-- Reads the sign that tells what becomes of the line breaks. -/
def chompingSign (c : Cursor) : Option Chomping × Cursor :=
  if c.peek == '+' then (some .keep, c.next)
  else if c.peek == '-' then (some .strip, c.next)
  else (none, c)

/-- Reads the digit that tells the indentation, which must not be zero. -/
def indentationDigit (c : Cursor) : Except Fault (Option Nat × Cursor) :=
  if c.peek.isDigit then
    if c.peek == '0' then .error .malformed else .ok (some (c.peek.toNat - 48), c.next)
  else .ok (none, c)

def blockHeader (c : Cursor) : Except Fault (BlockHeader × Cursor) := do
  let (before, c) := chompingSign c
  let (increment, c) ← indentationDigit c
  let (behind, c) := if before.isNone && increment.isSome then chompingSign c else (none, c)
  if !endsWord c.peek then throw .malformed
  return (⟨(before.or behind).getD .clip, increment⟩, ← c.finishLine)

/-- The line breaks before the first line, and the deepest column met on the way. -/
def leadingBreaks (fuel : Nat) (deepest : Nat) (c : Cursor) : List Char × Nat × Cursor :=
  match fuel with
  | 0 => ([], deepest, c)
  | fuel + 1 =>
    if c.peek == ' ' then leadingBreaks fuel (max deepest c.next.column) c.next
    else if isBreak c.peek then
      let (b, c) := c.readBreak
      let (more, deepest, c) := leadingBreaks fuel deepest c
      (b ++ more, deepest, c)
    else ([], deepest, c)

def skipIndent (fuel : Nat) (indent : Nat) (c : Cursor) : Cursor :=
  match fuel with
  | 0 => c
  | fuel + 1 => if c.column < indent && c.peek == ' ' then skipIndent fuel indent c.next else c

/-- The line breaks between two lines, up to the column of the next one. -/
def breaksBetween (fuel : Nat) (indent : Nat) (c : Cursor) : List Char × Cursor :=
  match fuel with
  | 0 => ([], c)
  | fuel + 1 =>
    let c := skipIndent indent indent c
    if isBreak c.peek then
      let (b, c) := c.readBreak
      let (more, c) := breaksBetween fuel indent c
      (b ++ more, c)
    else ([], c)

structure BlockLines where
  text : List Char
  /-- The break of the last line. -/
  lastBreak : List Char
  /-- The line breaks behind it. -/
  breaks : List Char
  cursor : Cursor

def atLine (indent : Nat) (c : Cursor) : Bool := c.column == indent && !c.atEnd

/-- Reads the lines of a block scalar; `breaks` stand before the first of them. -/
def blockLines (folded : Bool) (indent : Nat) (fuel : Nat) (breaks : List Char) (c : Cursor) : BlockLines :=
  match fuel with
  | 0 => ⟨[], [], breaks, c⟩
  | fuel + 1 =>
    if !atLine indent c then ⟨[], [], breaks, c⟩
    else
      let isBlank (ch : Char) : Bool := ch == ' ' || ch == '\t'
      let startsBlank := isBlank c.peek
      let (line, c) := c.span fun ch => !endsLine ch
      let (lineBreak, c) := c.readBreak
      let (between, c) := breaksBetween (c.rest.length + 1) indent c
      if atLine indent c then
        let joint :=
          if folded && lineBreak == ['\n'] && !startsBlank && !isBlank c.peek then
            if between.isEmpty then [' '] else []
          else lineBreak
        let more := blockLines folded indent fuel between c
        { more with text := breaks ++ line ++ joint ++ more.text }
      else ⟨breaks ++ line, lineBreak, between, c⟩

/-- Reads a block scalar inside a block of some indentation; the position is at its indicator. -/
def readBlock (indent : Int) (c : Cursor) : Except Fault (String × Cursor) := do
  let folded := c.peek == '>'
  let (header, c) ← blockHeader c.next
  let least := max 1 (indent + 1).toNat
  let fuel := c.rest.length + 1
  let (column, breaks, c) :=
    match header.increment with
    | some n =>
      let column := least + n - 1
      let (breaks, c) := breaksBetween fuel column c
      (column, breaks, c)
    | none =>
      let (breaks, deepest, c) := leadingBreaks fuel 0 c
      (max least deepest, breaks, c)
  let lines := blockLines folded column (c.rest.length + 1) breaks c
  let text :=
    match header.chomping with
    | .strip => lines.text
    | .clip => lines.text ++ lines.lastBreak
    | .keep => lines.text ++ lines.lastBreak ++ lines.breaks
  return (String.ofList text, lines.cursor)

end Thumbnailer.Yaml
