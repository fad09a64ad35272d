import Thumbnailer.Text.Blank
import Thumbnailer.Text.Search
import Thumbnailer.Text.Word

/-!
# Progress reports

A running encoder reports line by line. Values are remembered from line to line; a line with a state closes
a block and makes a report of the latest values.
-/

namespace Thumbnailer

/-- The latest state, media time and speed. -/
structure Progress where
  state : String := ""
  time : String := ""
  speed : String := ""
deriving DecidableEq, Repr

namespace Progress

/-- The characters of a state: word characters and points. -/
def isStateChar (c : Char) : Bool := Text.isWord c || c == '.'

def stateIn? (line : List Char) : Option String :=
  (Text.findAfter? "progress=" isStateChar line).map String.ofList

/-- The value behind a mark, up to a space and without other blanks at its ends. -/
def valueIn? (mark : String) (line : List Char) : Option String :=
  (Text.findAfter? mark (· != ' ') line).map fun v => String.ofList (Text.trimChars v)

def update (p : Progress) (line : List Char) : Progress where
  state := (stateIn? line).getD p.state
  time := (valueIn? "out_time=" line).getD p.time
  speed := (valueIn? "speed=" line).getD p.speed

/-- The values after a line, and the report that the line makes. -/
def feed (p : Progress) (line : List Char) : Option Progress × Progress :=
  let next := p.update line
  (if (stateIn? line).isSome then some next else none, next)

end Progress

end Thumbnailer
