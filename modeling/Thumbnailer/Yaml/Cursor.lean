import Thumbnailer.Yaml.Fault

/-!
# Reading positions

A position in a text with its line and column. Behind the end of the text the character zero is read, which
no text holds. Newlines are unified before a text is read.
-/

namespace Thumbnailer.Yaml

/-- The character that is read behind the end. -/
def endMark : Char := '\x00'

def isBreak (c : Char) : Bool := c == '\n' || c == '\x85' || c == '\u2028' || c == '\u2029'

def endsLine (c : Char) : Bool := c == endMark || isBreak c

def endsWord (c : Char) : Bool := c == ' ' || endsLine c

def endsToken (c : Char) : Bool := c == '\t' || endsWord c

/-- The mark that may stand before a text and takes no column. -/
def byteOrderMark : Char := '\ufeff'

/-- A position: the text behind it, and how many characters, lines and columns stand before it. -/
structure Cursor where
  rest : List Char
  index : Nat := 0
  line : Nat := 0
  column : Nat := 0

namespace Cursor

/-- The character some places behind the position. -/
def ahead (c : Cursor) (k : Nat) : Char := c.rest.getD k endMark

def peek (c : Cursor) : Char := c.ahead 0

def atEnd (c : Cursor) : Bool := c.rest.isEmpty

def next (c : Cursor) : Cursor :=
  match c.rest with
  | [] => c
  | ch :: rest =>
    if isBreak ch then ⟨rest, c.index + 1, c.line + 1, 0⟩
    else ⟨rest, c.index + 1, c.line, if ch == byteOrderMark then c.column else c.column + 1⟩

def skip : Nat → Cursor → Cursor
  | 0, c => c
  | n + 1, c => skip n c.next

/-- The longest run of the characters in a class, and the position behind it. -/
def span (c : Cursor) (p : Char → Bool) : List Char × Cursor :=
  let run := c.rest.takeWhile p
  (run, c.skip run.length)

def skipSpaces (c : Cursor) : Cursor := (c.span (· == ' ')).2

def skipLine (c : Cursor) : Cursor := (c.span fun ch => !endsLine ch).2

/-- Reads a line break: the newline, or one of the separators as it is. -/
def readBreak (c : Cursor) : List Char × Cursor :=
  if isBreak c.peek then ([if c.peek == '\x85' then '\n' else c.peek], c.next) else ([], c)

/-- One of the marks between documents stands here: three equal characters and the end of the token. -/
def atMark (c : Cursor) (mark : Char) : Bool :=
  c.ahead 0 == mark && c.ahead 1 == mark && c.ahead 2 == mark && endsToken (c.ahead 3)

def atSeparator (c : Cursor) : Bool := c.atMark '-' || c.atMark '.'

/-- The text may end here or a comment begin: the rest of the line must hold nothing else. -/
def finishLine (c : Cursor) : Except Fault Cursor :=
  let c := c.skipSpaces
  let c := if c.peek == '#' then c.skipLine else c
  if endsLine c.peek then .ok c.readBreak.2 else .error .malformed

end Cursor

end Thumbnailer.Yaml
