import Thumbnailer.OrderedMap
import Thumbnailer.Text.Blank
import Thumbnailer.Text.Quoted

/-!
# Headers

The headers of network inputs: read one by one, and written as one text with a line for each.
-/

namespace Thumbnailer

abbrev Headers := OrderedMap String String

def headerLine (h : String × String) : String := h.1 ++ ": " ++ h.2 ++ "\r\n"

/-- All headers, each on a line of its own. -/
def Headers.text (hs : Headers) : String := String.join (hs.map headerLine)

/-! ## Reading -/

/-- A text that is no header: it has no colon, or no name before it. -/
inductive HeaderError where
  | malformed (text : String)
deriving DecidableEq, Repr

def HeaderError.message : HeaderError → String
  | .malformed text => s!"invalid header {Text.quoted text}, expected 'Name: Value'"

/-- Reads one header: the name stands before the first colon and the value behind it. -/
def readHeader (text : String) : Except HeaderError (String × String) :=
  let name := Text.trimChars (text.toList.takeWhile (· != ':'))
  let behind := text.toList.dropWhile (· != ':')
  if behind.isEmpty || name.isEmpty then .error (.malformed text)
  else .ok (String.ofList name, String.ofList (Text.trimChars (behind.drop 1)))

def readHeaders : List String → Except HeaderError (List (String × String))
  | [] => .ok []
  | text :: rest =>
    match readHeader text with
    | .error e => .error e
    | .ok h => (readHeaders rest).map (h :: ·)

/-- The headers in a list of texts; of several values for a name the last one counts. -/
def Headers.parse (texts : List String) : Except HeaderError Headers :=
  (readHeaders texts).map OrderedMap.ofList

end Thumbnailer
