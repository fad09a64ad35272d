import Thumbnailer.Text.Utf8
import Thumbnailer.Yaml.Quoted
import Thumbnailer.Yaml.Token

/-!
# Names, tags and directives

What stands before a node: a name to refer to it, and a tag that says what it is; and the directives before a
document.
-/

namespace Thumbnailer.Yaml

/-- A character of an anchor, a tag handle or the name of a directive. -/
def isNameChar (c : Char) : Bool := c.isAlphanum || c == '-' || c == '_'

def readName (c : Cursor) : Except Fault (String × Cursor) :=
  let (name, c) := c.span isNameChar
  if name.isEmpty then .error .malformed else .ok (String.ofList name, c)

/-- What may follow an anchor or an alias. -/
def endsAnchor (c : Char) : Bool := endsToken c || "?:,]\x7d%@\x60".toList.contains c

def readAnchor (c : Cursor) : Except Fault (String × Cursor) := do
  let (name, c) ← readName c.next
  if endsAnchor c.peek then return (name, c) else throw .malformed

/-! ## Tags -/

/-- A character of a tag, a percent sign apart. -/
def isTagChar (c : Char) : Bool := isNameChar c || ";/?:@&=+$,.!~*\x27()[]".toList.contains c

/-- Reads a run of escaped bytes: a percent sign and two hexadecimal digits for each. -/
def escapedBytes (fuel : Nat) (c : Cursor) : Except Fault (List UInt8 × Cursor) :=
  match fuel with
  | 0 => .error .malformed
  | fuel + 1 =>
    if c.peek != '%' then .ok ([], c)
    else
      match hexAhead? c.next 2 with
      | none => .error .malformed
      | some code => (escapedBytes fuel (c.skip 3)).map fun r => (code.toUInt8 :: r.1, r.2)

/-- Reads the text of a tag as far as it goes. -/
def tagTail (fuel : Nat) (c : Cursor) : Except Fault (List Char × Cursor) :=
  match fuel with
  | 0 => .error .malformed
  | fuel + 1 =>
    let (run, c) := c.span isTagChar
    if c.peek != '%' then .ok (run, c)
    else do
      let (bytes, c) ← escapedBytes (c.rest.length + 1) c
      match Text.decodeStrict? bytes with
      | none => throw .malformed
      | some text =>
        let (more, c) ← tagTail fuel c
        return (run ++ text ++ more, c)

def readTagText (c : Cursor) : Except Fault (String × Cursor) :=
  if isTagChar c.peek || c.peek == '%' then
    (tagTail (c.rest.length + 1) c).map fun r => (String.ofList r.1, r.2)
  else .error .malformed

/-- Reads a tag handle: an exclamation mark, or a name between two of them. -/
def readHandle (c : Cursor) : Except Fault (String × Cursor) :=
  if c.peek != '!' then .error .malformed
  else if c.ahead 1 == ' ' then .ok ("!", c.next)
  else
    let (name, behind) := c.next.span isNameChar
    if behind.peek == '!' then .ok (String.ofList ('!' :: name ++ ['!']), behind.next)
    else .error .malformed

/-- Reads a tag; the position is at its exclamation mark. -/
def readTag (c : Cursor) : Except Fault (WrittenTag × Cursor) := do
  let (tag, c) ←
    if c.ahead 1 == '<' then
      let (text, c) ← readTagText (c.skip 2)
      if c.peek == '>' then pure (WrittenTag.mk none text, c.next) else throw .malformed
    else if endsToken (c.ahead 1) then pure (WrittenTag.mk none "!", c.next)
    else
      let word := c.next.rest.takeWhile fun ch => !endsWord ch
      let (handle, c) ← if word.contains '!' then readHandle c else pure ("!", c.next)
      let (text, c) ← readTagText c
      pure (WrittenTag.mk (some handle) text, c)
  if endsWord c.peek then return (tag, c) else throw .malformed

/-! ## Directives -/

def readVersionPart (c : Cursor) : Except Fault (Nat × Cursor) :=
  let (digits, c) := c.span Char.isDigit
  if digits.isEmpty then .error .malformed
  else
    match Text.readInteger (String.ofList digits) with
    | .ok n => .ok (n.toNat, c)
    | .error reason => .error (.badInteger reason)

def readVersion (c : Cursor) : Except Fault (Directive × Cursor) := do
  let (major, c) ← readVersionPart c.skipSpaces
  if c.peek != '.' then throw .malformed
  let (minor, c) ← readVersionPart c.next
  if endsWord c.peek then return (.version major minor, c) else throw .malformed

def readHandleMeaning (c : Cursor) : Except Fault (Directive × Cursor) := do
  let (name, c) ← readHandle c.skipSpaces
  if c.peek != ' ' then throw .malformed
  let (text, c) ← readTagText c.skipSpaces
  if endsWord c.peek then return (.handle name text, c) else throw .malformed

def readDirective (c : Cursor) : Except Fault (Directive × Cursor) := do
  let (name, c) ← readName c.next
  if !endsWord c.peek then throw .malformed
  let (directive, c) ←
    if name = "YAML" then readVersion c
    else if name = "TAG" then readHandleMeaning c
    else pure (.other, c.skipLine)
  return (directive, ← c.finishLine)

end Thumbnailer.Yaml
