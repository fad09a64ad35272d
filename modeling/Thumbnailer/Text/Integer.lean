import Thumbnailer.Text.Blank
import Thumbnailer.Text.Digit
import Thumbnailer.Text.Quoted

/-!
# Integers as text

An integer is read from digits of any script, with a sign before them, single underscores between them
and blanks around the whole. A number of more than 4300 digits is neither read nor written.
-/

namespace Thumbnailer.Text

/-- The most digits of a number that is read or written. -/
def digitLimit : Nat := 4300

/-- Why a text is not read as an integer, or an integer not written. -/
inductive IntegerError where
  /-- The text is no integer in this base. -/
  | malformed (base : Nat) (text : String)
  /-- The text has this many digits, more than the limit. -/
  | tooManyDigits (count : Nat)
  /-- The number has more digits than the limit. -/
  | tooLarge
deriving DecidableEq, Repr

def IntegerError.message : IntegerError → String
  | .malformed base text =>
    s!"invalid literal for int() with base {base}: {String.ofList ((quoted text).toList.take 200)}"
  | .tooManyDigits count =>
    s!"Exceeds the limit ({digitLimit} digits) for integer string conversion: value has {count} digits; use sys.set_int_max_str_digits() to increase the limit"
  | .tooLarge =>
    s!"Exceeds the limit ({digitLimit} digits) for integer string conversion; use sys.set_int_max_str_digits() to increase the limit"

/-- The value of a digit in a base of at most 36; letters are the digits from ten on. -/
def digitInBase? (base : Nat) (c : Char) : Option Nat :=
  let value :=
    if c.isLower then some (c.toNat - 87)
    else if c.isUpper then some (c.toNat - 55)
    else digitValue? c
  value.filter (· < base)

/-- Reads the digits at the start of a text: their values, and the rest. An underscore counts between two
digits only; `none` if one stands elsewhere. -/
def readDigits (base : Nat) : List Char → Option (List Nat × List Char)
  | [] => some ([], [])
  | c :: rest =>
    match digitInBase? base c with
    | none => some ([], c :: rest)
    | some d =>
      match rest with
      | '_' :: e :: rest' =>
        if (digitInBase? base e).isSome then
          (readDigits base (e :: rest')).map fun r => (d :: r.1, r.2)
        else none
      | ['_'] => none
      | rest => (readDigits base rest).map fun r => (d :: r.1, r.2)
termination_by s => s.length
decreasing_by all_goals (simp only [List.length_cons]; omega)

def ofDigits (base : Nat) (digits : List Nat) : Nat :=
  digits.foldl (fun n d => n * base + d) 0

/-- Takes off the letters that announce the base, `0x` for sixteen, `0o` for eight and `0b` for two, and an
underscore after them. -/
def dropBaseMark (base : Nat) (s : List Char) : List Char :=
  let letter :=
    if base = 16 then ['x', 'X'] else if base = 8 then ['o', 'O'] else if base = 2 then ['b', 'B'] else []
  match s with
  | '0' :: c :: '_' :: rest => if letter.contains c then rest else s
  | '0' :: c :: rest => if letter.contains c then rest else s
  | _ => s

def splitSign : List Char → Bool × List Char
  | '-' :: rest => (true, rest)
  | '+' :: rest => (false, rest)
  | rest => (false, rest)

def readIntegerIn (base : Nat) (text : String) : Except IntegerError Int :=
  let (negative, unsigned) := splitSign (text.toList.dropWhile isNumberBlank)
  match readDigits base (dropBaseMark base unsigned) with
  | none => .error (.malformed base text)
  | some ([], _) => .error (.malformed base text)
  | some (digits, rest) =>
    if base = 10 && digits.length > digitLimit then .error (.tooManyDigits digits.length)
    else if rest.all isNumberBlank then
      .ok (if negative then -(ofDigits base digits : Int) else ofDigits base digits)
    else .error (.malformed base text)

def readInteger (text : String) : Except IntegerError Int := readIntegerIn 10 text

def isWritable (n : Int) : Bool := n.natAbs < Nat.pow 10 digitLimit

def writeInteger (n : Int) : Except IntegerError String :=
  if isWritable n then .ok (toString n) else .error .tooLarge

end Thumbnailer.Text
