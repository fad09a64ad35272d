import Thumbnailer.Text.Blank
import Thumbnailer.Text.Lines
import Thumbnailer.Text.Search

/-!
# The line that names the error

Of all that a failed program wrote, one line is shown: the last one with a phrase that errors are known by, or
else the last one that is not blank.
-/

namespace Thumbnailer

/-- The phrases that errors are known by, whatever their case. -/
def errorPhrases : List String :=
  ["error", "invalid", "no such file", "not found", "permission denied", "discarding"]

/-- The line holds a phrase that errors are known by. -/
def namesError (line : List Char) : Bool :=
  errorPhrases.any fun phrase => Text.holdsLike phrase.toList line

def findLast? {α : Type} (p : α → Bool) (items : List α) : Option α := items.reverse.find? p

def errorLine (stderr : String) : String :=
  let lines := Text.splitLines (Text.trimChars stderr.toList)
  match findLast? namesError lines with
  | some line => String.ofList (Text.trimChars line)
  | none =>
    match findLast? (fun line => !(Text.trimChars line).isEmpty) lines with
    | some line => String.ofList (Text.trimChars line)
    | none => "Unknown error"

end Thumbnailer
