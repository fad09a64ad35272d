import Thumbnailer.Text.Integer

/-!
# Versions

A version is a list of numbers, written with points between them. Versions are compared number by number, and
a missing number counts as zero.
-/

namespace Thumbnailer

abbrev Version := List Int

inductive VersionError where
  | empty (text : String)
  | badPart (reason : Text.IntegerError)
deriving DecidableEq, Repr

def VersionError.message : VersionError → String
  | .empty text => s!"empty version string: {Text.quoted text}"
  | .badPart reason => reason.message

namespace Version

/-- The parts between the points of a text that are not empty. -/
def parts (text : String) : List String :=
  (((Text.strip (· == '.') text.toList).splitOn '.').filter fun p => !p.isEmpty).map String.ofList

def readParts : List String → Except VersionError Version
  | [] => .ok []
  | p :: rest =>
    match Text.readInteger p with
    | .error e => .error (.badPart e)
    | .ok n => (readParts rest).map (n :: ·)

/-- Reads a version; points too many do not count. -/
def parse (text : String) : Except VersionError Version :=
  if (parts text).isEmpty then .error (.empty text) else readParts (parts text)

def text (v : Version) : String := ".".intercalate (v.map toString)

/-- Writes a version; the first number that cannot be written decides. -/
def write (v : Version) : Except Text.IntegerError String := do
  return ".".intercalate (← v.mapM Text.writeInteger)

/-- A version with zeros behind it up to a length. -/
def padded (size : Nat) (v : Version) : Version := v ++ List.replicate (size - v.length) 0

/-- The first difference of two lists decides, and a list comes before its extensions. -/
def before : Version → Version → Bool
  | [], [] => false
  | [], _ :: _ => true
  | _ :: _, [] => false
  | a :: v, b :: w => if a = b then before v w else a < b

def older (v w : Version) : Bool :=
  let size := max v.length w.length
  before (padded size v) (padded size w)

end Version

end Thumbnailer
