import Thumbnailer.Number.Shortest
import Thumbnailer.Text.Base64
import Thumbnailer.Text.Lower
import Thumbnailer.Yaml.Fault
import Thumbnailer.Yaml.Tag

/-!
# Scalar values

What the text of a scalar means under a tag.
-/

namespace Thumbnailer.Yaml

inductive Scalar where
  | null
  | bool (b : Bool)
  | int (n : Int)
  | float (x : Double)
  | text (s : String)
  | bytes (bs : List UInt8)
  | moment (m : Moment)
deriving DecidableEq, Repr

namespace Scalar

/-- The number that stands behind a truth value, an integer or a whole float. -/
def whole? : Scalar → Option Int
  | .bool b => some (if b then 1 else 0)
  | .int n => some n
  | .float x => x.toInt?
  | _ => none

/-- Two keys are the same one: numbers are by their value, whatever their kind. -/
def sameKey (a b : Scalar) : Bool :=
  match a.whole?, b.whole? with
  | some m, some n => m == n
  | _, _ => a == b

def shownByte (quote : Char) (b : UInt8) : List Char :=
  let c := Char.ofNat b.toNat
  if b < 0x7f then Text.shownChar quote c else '\\' :: 'x' :: Text.hex 2 b.toNat

def shownBytes (bs : List UInt8) : String :=
  let quote := Text.quoteOf (bs.map fun b => Char.ofNat b.toNat)
  String.ofList ('b' :: quote :: bs.flatMap (shownByte quote) ++ [quote])

def shown : Scalar → String
  | .null => "None"
  | .bool b => if b then "True" else "False"
  | .int n =>
    match Text.writeInteger n with
    | .ok s => s
    | .error _ => "<unprintable int object>"
  | .float x => x.text
  | .text s => Text.quoted s
  | .bytes bs => shownBytes bs
  | .moment m => m.shown

end Scalar

/-! ## Numbers -/

/-- The sign before a number, and the text behind it. A number must have at least one character. -/
def splitSign (text : List Char) : Except Fault (Bool × List Char) :=
  match text with
  | [] => .error .emptyNumber
  | '-' :: rest => .ok (true, rest)
  | '+' :: rest => .ok (false, rest)
  | s => .ok (false, s)

def integerIn (base : Nat) (s : List Char) : Except Fault Int :=
  match Text.readIntegerIn base (String.ofList s) with
  | .ok n => .ok n
  | .error reason => .error (.badInteger reason)

/-- Places between colons, the first one first. -/
def places (s : List Char) : List (List Char) := s.splitOn ':'

/-- An integer without its sign: the base is known by its beginning, and colons separate places in base sixty. -/
def unsignedInteger (s : List Char) : Except Fault Int :=
  match s with
  | [] => .error .emptyNumber
  | ['0'] => .ok 0
  | '0' :: 'b' :: rest => integerIn 2 rest
  | '0' :: 'x' :: rest => integerIn 16 rest
  | '0' :: _ => integerIn 8 s
  | _ =>
    if s.contains ':' then do
      let parts ← (places s).mapM (integerIn 10)
      return parts.foldl (fun n part => n * 60 + part) 0
    else integerIn 10 s

/-- The integer of a text. Underscores do not count. -/
def integerValue (text : String) : Except Fault Int := do
  let (negative, s) ← splitSign (text.toList.filter (· != '_'))
  let n ← unsignedInteger s
  return if negative then -n else n

def floatOf (s : List Char) : Except Fault Double :=
  match Double.read? (String.ofList s) with
  | some x => .ok x
  | none => .error (.badFloat (String.ofList s))

/-- The sum of places in base sixty, the last one first; `base` is what the first of them counts. -/
def sumPlaces (base : Nat) (sum : Double) : List Double → Except Fault Double
  | [] => .ok sum
  | place :: rest =>
    match Double.ofInt base with
    | .infinite _ => .error .tooManyPlaces
    | b => sumPlaces (base * 60) (Double.add sum (Double.mul place b)) rest

/-- A number without its sign. -/
def unsignedFloat (s : List Char) : Except Fault Double :=
  if s == ".inf".toList then .ok (.infinite false)
  else if s == ".nan".toList then .ok .nan
  else if s.contains ':' then do
    let parts ← (places s).mapM floatOf
    sumPlaces 1 (Double.zero false) parts.reverse
  else floatOf s

/-- The number of a text. Underscores do not count, nor does the case of letters. -/
def floatValue (text : String) : Except Fault Double := do
  let (negative, s) ← splitSign (Text.lower (String.ofList (text.toList.filter (· != '_')))).toList
  let x ← unsignedFloat s
  return if negative then Double.negate x else x

/-! ## Other scalars -/

def boolValue (text : String) : Except Fault Bool :=
  let word := Text.lower text
  match boolWords.lookup word with
  | some b => .ok b
  | none => .error (.badBoolean word)

def bytesValue (text : String) : Except Fault (List UInt8) :=
  if text.toList.all fun c => c.toNat < 128 then
    match Text.decodeBase64? text.toList with
    | some bs => .ok bs
    | none => .error .malformed
  else .error .malformed

def momentValue (text : String) : Except Fault Moment :=
  match Moment.read? text with
  | none => .error .badTimestamp
  | some m =>
    match m.error? with
    | none => .ok m
    | some reason => .error (.badMoment reason)

/-- The value of a text under a tag that is one for scalars, and `none` under all others. -/
def Scalar.ofText? (tag : Tag) (text : String) : Option (Except Fault Scalar) :=
  match tag with
  | .null => some (.ok .null)
  | .bool => some ((boolValue text).map .bool)
  | .int => some ((integerValue text).map .int)
  | .float => some ((floatValue text).map .float)
  | .binary => some ((bytesValue text).map .bytes)
  | .timestamp => some ((momentValue text).map .moment)
  | .text => some (.ok (.text text))
  | _ => none

end Thumbnailer.Yaml
