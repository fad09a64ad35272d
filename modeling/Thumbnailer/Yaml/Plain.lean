import Thumbnailer.Yaml.Cursor

/-!
# Plain scalars

A plain scalar has no quotes. It goes on over line breaks while the lines are indented deeply enough.
-/

namespace Thumbnailer.Yaml

/-- The characters that end a plain scalar inside brackets. -/
def endsInFlow (c : Char) : Bool := ",?[]\x7b\x7d".toList.contains c

/-- The characters behind a colon with which it ends a plain scalar. -/
def endsColon (flow : Bool) (c : Char) : Bool := endsToken c || (flow && ",[]\x7b\x7d".toList.contains c)

/-- The characters of a plain scalar up to the next blank. -/
def plainRun (flow : Bool) : List Char → List Char
  | [] => []
  | c :: rest =>
    if endsToken c || (flow && endsInFlow c) || (c == ':' && endsColon flow (rest.headD endMark)) then []
    else c :: plainRun flow rest

/-- Line breaks and spaces behind a first line break, up to a mark between documents; `none` if there is one. -/
def plainBreaks (fuel : Nat) (c : Cursor) : Option (List Char) × Cursor :=
  match fuel with
  | 0 => (some [], c)
  | fuel + 1 =>
    if c.peek == ' ' then plainBreaks fuel c.next
    else if isBreak c.peek then
      let (b, c) := c.readBreak
      if c.atSeparator then (none, c)
      else
        let (more, c) := plainBreaks fuel c
        (more.map (b ++ ·), c)
    else (some [], c)

/-- The blanks inside a plain scalar as they count, if it may go on behind them, and whether a line ended. -/
def plainBlanks (c : Cursor) : List Char × Bool × Cursor :=
  let (spaces, c) := c.span (· == ' ')
  if isBreak c.peek then
    let (first, c) := c.readBreak
    if c.atSeparator then ([], true, c)
    else
      match plainBreaks (c.rest.length + 1) c with
      | (none, c) => ([], true, c)
      | (some more, c) =>
        (if first != ['\n'] then first ++ more else if more.isEmpty then [' '] else more, true, c)
  else (spaces, false, c)

/-- The rest of a plain scalar behind some blanks, and whether a line ended just before its end. -/
def plainBody (flow : Bool) (indent : Int) (fuel : Nat) (blanks : List Char) (ended : Bool) (c : Cursor) :
    List Char × Bool × Cursor :=
  match fuel with
  | 0 => ([], ended, c)
  | fuel + 1 =>
    let run := if c.peek == '#' then [] else plainRun flow c.rest
    if run.isEmpty then ([], ended, c)
    else
      let (more, ended, c) := plainBlanks (c.skip run.length)
      if more.isEmpty || c.peek == '#' || (!flow && c.column < indent) then (blanks ++ run, ended, c)
      else
        let (tail, ended, c) := plainBody flow indent fuel more ended c
        (blanks ++ run ++ tail, ended, c)

/-- Reads a plain scalar inside a block of some indentation. The flag tells that a line ended just before the
position behind it. -/
def readPlain (flow : Bool) (indent : Int) (c : Cursor) : String × Bool × Cursor :=
  let (text, ended, c) := plainBody flow (indent + 1) (c.rest.length + 1) [] false c
  (String.ofList text, ended, c)

end Thumbnailer.Yaml
