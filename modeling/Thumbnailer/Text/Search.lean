/-!
# Searching

The leftmost place of a text where something can be read, and phrases found without regard to case.
-/

namespace Thumbnailer.Text

/-- What `read` gives at the leftmost place where it gives anything. -/
def leftmost {α : Type} (read : List Char → Option α) : List Char → Option α
  | [] => read []
  | c :: rest =>
    match read (c :: rest) with
    | some a => some a
    | none => leftmost read rest

def holds (part : List Char) (s : List Char) : Bool :=
  (leftmost (fun t => part.isPrefixOf? t) s).isSome

/-- The longest run of the characters in a class that stands right behind a mark, if it is not empty. -/
def runAfter? (mark : List Char) (inRun : Char → Bool) (s : List Char) : Option (List Char) :=
  (mark.isPrefixOf? s).bind fun rest =>
    let run := rest.takeWhile inRun
    if run.isEmpty then none else some run

/-- The leftmost run of the characters in a class that stands right behind a mark. -/
def findAfter? (mark : String) (inRun : Char → Bool) (s : List Char) : Option (List Char) :=
  leftmost (runAfter? mark.toList inRun) s

/-- The small ASCII letter or other character `a` stands for `c` when case does not count. The dotted and
dotless i of Turkish count as i, and the long s as s. -/
def sameLetter (a c : Char) : Bool :=
  c == a || (c.isUpper && c.toLower == a) || (a == 'i' && (c == '\u0130' || c == '\u0131')) ||
    (a == 's' && c == '\u017f') || (a == 'k' && c == '\u212a')

/-- The text starts with the phrase when case does not count. -/
def startsLike : List Char → List Char → Bool
  | [], _ => true
  | _ :: _, [] => false
  | a :: phrase, c :: s => sameLetter a c && startsLike phrase s

/-- The text holds the phrase somewhere when case does not count. -/
def holdsLike (phrase s : List Char) : Bool :=
  (leftmost (fun t => if startsLike phrase t then some () else none) s).isSome

end Thumbnailer.Text
