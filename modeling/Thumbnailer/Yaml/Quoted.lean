import Thumbnailer.Yaml.Cursor

/-!
# Quoted scalars

Between single quotes all characters stand for themselves, and a quote is written twice. Between double quotes
a backslash begins an escape. Line breaks in both are folded.
-/

namespace Thumbnailer.Yaml

/-- The character that an escape of one letter stands for. -/
def simpleEscape? (c : Char) : Option Char :=
  match c with
  | '0' => some '\x00'
  | 'a' => some '\x07'
  | 'b' => some '\x08'
  | 't' => some '\t'
  | '\t' => some '\t'
  | 'n' => some '\n'
  | 'v' => some '\x0b'
  | 'f' => some '\x0c'
  | 'r' => some '\r'
  | 'e' => some '\x1b'
  | ' ' => some ' '
  | '"' => some '"'
  | '\\' => some '\\'
  | '/' => some '/'
  | 'N' => some '\x85'
  | '_' => some '\xa0'
  | 'L' => some '\u2028'
  | 'P' => some '\u2029'
  | _ => none

/-- How many hexadecimal digits follow the letter of an escape. -/
def escapeLength? (c : Char) : Option Nat :=
  match c with
  | 'x' => some 2
  | 'u' => some 4
  | 'U' => some 8
  | _ => none

def hexValue? (c : Char) : Option Nat :=
  if c.isDigit then some (c.toNat - 48)
  else if 'a' ≤ c && c ≤ 'f' then some (c.toNat - 87)
  else if 'A' ≤ c && c ≤ 'F' then some (c.toNat - 55)
  else none

/-- The number that some hexadecimal digits at a position stand for. -/
def hexAhead? (c : Cursor) (count : Nat) : Option Nat :=
  (List.range count).foldlM (fun n k => (hexValue? (c.ahead k)).map (n * 16 + ·)) 0

def isHighHalf (code : Nat) : Bool := 0xd800 ≤ code && code < 0xdc00

def isLowHalf (code : Nat) : Bool := 0xdc00 ≤ code && code < 0xe000

/-- The character with a code. Half a surrogate pair is none. -/
def ofCode (code : Nat) : Char := if isHighHalf code || isLowHalf code then '\ufffd' else Char.ofNat code

/-- Codes as text. Two halves of a surrogate pair are one character. -/
def joinCodes : List Nat → List Char
  | high :: low :: rest =>
    if isHighHalf high && isLowHalf low then
      Char.ofNat (0x10000 + (high - 0xd800) * 0x400 + (low - 0xdc00)) :: joinCodes rest
    else ofCode high :: joinCodes (low :: rest)
  | codes => codes.map ofCode

def codes (s : List Char) : List Nat := s.map Char.toNat

/-- The line breaks after a first one, with the blanks before and behind them skipped. No mark between documents
may stand there. -/
def foldedBreaks (fuel : Nat) (c : Cursor) : Except Fault (List Char × Cursor) :=
  match fuel with
  | 0 => .error .malformed
  | fuel + 1 =>
    if c.atSeparator then .error .malformed
    else
      let c := (c.span fun ch => ch == ' ' || ch == '\t').2
      if isBreak c.peek then
        let (b, c) := c.readBreak
        (foldedBreaks fuel c).map fun r => (b ++ r.1, r.2)
      else .ok ([], c)

/-- Blanks inside quotes. A single line break becomes a space, and of several the first is dropped. -/
def quotedBlanks (c : Cursor) : Except Fault (List Char × Cursor) :=
  let (blanks, c) := c.span fun ch => ch == ' ' || ch == '\t'
  if c.atEnd then .error .malformed
  else if isBreak c.peek then
    let (first, c) := c.readBreak
    (foldedBreaks (c.rest.length + 1) c).map fun r =>
      (if first != ['\n'] then first ++ r.1 else if r.1.isEmpty then [' '] else r.1, r.2)
  else .ok (blanks, c)

def escape (c : Cursor) : Except Fault (List Nat × Cursor) :=
  match simpleEscape? c.peek, escapeLength? c.peek with
  | some ch, _ => if c.atEnd then .error .malformed else .ok ([ch.toNat], c.next)
  | none, some count =>
    match hexAhead? c.next count with
    | none => .error .malformed
    | some code => if code < 0x110000 then .ok ([code], c.skip (count + 1)) else .error (.badCode code)
  | none, none =>
    if isBreak c.peek then
      let c := c.readBreak.2
      (foldedBreaks (c.rest.length + 1) c).map fun r => (codes r.1, r.2)
    else .error .malformed

/-- Characters up to the next blank or the closing quote. -/
def quotedRun (double : Bool) (fuel : Nat) (c : Cursor) : Except Fault (List Nat × Cursor) :=
  match fuel with
  | 0 => .error .malformed
  | fuel + 1 =>
    let ch := c.peek
    let one (code : List Nat) (c : Cursor) : Except Fault (List Nat × Cursor) :=
      (quotedRun double fuel c).map fun r => (code ++ r.1, r.2)
    if endsToken ch then .ok ([], c)
    else if !double && ch == '\x27' then
      if c.ahead 1 == '\x27' then one [ch.toNat] (c.skip 2) else .ok ([], c)
    else if double && ch == '"' then .ok ([], c)
    else if double && ch == '\\' then
      match escape c.next with
      | .error e => .error e
      | .ok (code, c) => one code c
    else one [ch.toNat] c.next

/-- What stands between the quotes; the position is behind the opening quote. -/
def quotedBody (double : Bool) (fuel : Nat) (c : Cursor) : Except Fault (List Nat × Cursor) :=
  match fuel with
  | 0 => .error .malformed
  | fuel + 1 => do
    let (run, c) ← quotedRun double (c.rest.length + 1) c
    if c.peek == (if double then '"' else '\x27') then return (run, c.next)
    let (blanks, c) ← quotedBlanks c
    let (more, c) ← quotedBody double fuel c
    return (run ++ codes blanks ++ more, c)

def readQuoted (c : Cursor) : Except Fault (String × Cursor) :=
  (quotedBody (c.peek == '"') (c.rest.length + 1) c.next).map fun r => (String.ofList (joinCodes r.1), r.2)

end Thumbnailer.Yaml
