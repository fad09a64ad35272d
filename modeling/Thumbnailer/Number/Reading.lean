import Thumbnailer.Number.Double
import Thumbnailer.Text.Blank
import Thumbnailer.Text.Digit

/-!
# Reading binary64 numbers

A number is written as digits with an optional point and exponent, or as a word for an infinity or for none.
Digits of every script and single underscores between digits are allowed, and blanks around the whole.
-/

namespace Thumbnailer

namespace Double

def spanDigits (s : List Char) : List Char × List Char :=
  (s.takeWhile Char.isDigit, s.dropWhile Char.isDigit)

def digitsValue (ds : List Char) : Nat := ds.foldl (fun n c => n * 10 + (c.toNat - 48)) 0

/-- An exponent: nothing, or a letter e with digits behind it that may have a sign. -/
def readExponent? : List Char → Option Int
  | [] => some 0
  | c :: rest =>
    if c == 'e' || c == 'E' then
      let (negative, ds) :=
        match rest with
        | '-' :: r => (true, r)
        | '+' :: r => (false, r)
        | r => (false, r)
      if !ds.isEmpty && ds.all Char.isDigit then
        some (if negative then -(digitsValue ds : Int) else digitsValue ds)
      else none
    else none

/-- A decimal without sign: its digits and the power of ten of the last. A digit must stand before or behind
the point. -/
def readUnsigned? (s : List Char) : Option (Nat × Int) :=
  let (whole, rest) := spanDigits s
  let (fraction, rest) :=
    match rest with
    | '.' :: r => spanDigits r
    | r => ([], r)
  if whole.isEmpty && fraction.isEmpty then none
  else (readExponent? rest).map fun e => (digitsValue (whole ++ fraction), e - fraction.length)

def lowered (s : List Char) : List Char := s.map Char.toLower

def readPlain? (s : List Char) : Option Double :=
  let (negative, body) :=
    match s with
    | '-' :: r => (true, r)
    | '+' :: r => (false, r)
    | r => (false, r)
  if lowered body = "inf".toList || lowered body = "infinity".toList then some (.infinite negative)
  else if lowered body = "nan".toList then some .nan
  else (readUnsigned? body).map fun (digits, e) => ofDecimal negative digits e

/-- Takes out underscores, each of which must stand between two digits. -/
def dropUnderscores? : List Char → Option (List Char)
  | [] => some []
  | c :: rest =>
    match rest with
    | '_' :: d :: rest' =>
      if c.isDigit && d.isDigit then (dropUnderscores? (d :: rest')).map (c :: ·) else none
    | ['_'] => none
    | rest => if c == '_' then none else (dropUnderscores? rest).map (c :: ·)
termination_by s => s.length
decreasing_by all_goals (simp only [List.length_cons]; omega)

/-- A digit of any script becomes the ASCII digit of its value. -/
def asciiDigit (c : Char) : Char :=
  match Text.digitValue? c with
  | some d => Nat.digitChar d
  | none => c

/-- Reads a number with blanks around it, underscores between digits and digits of any script. -/
def read? (text : String) : Option Double :=
  let s := Text.strip Text.isNumberBlank text.toList
  (dropUnderscores? (s.map asciiDigit)).bind readPlain?

end Double

end Thumbnailer
