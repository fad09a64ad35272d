import Thumbnailer.Settings.Checked
import Thumbnailer.Yaml.Value

/-!
# Field values

Values are taken for what a field needs where that loses nothing: a text that is written as a number is a number,
and a whole number with a point is an integer.
-/

namespace Thumbnailer.Field

open Yaml

/-! ## Integers -/

/-- The digits behind leading zeros. Underscores between the zeros do not count; a zero before a point stays. -/
def dropZeros (last : Char) : List Char → Option (List Char)
  | [] => some [last]
  | c :: rest =>
    if c == '0' || c == '_' then dropZeros c rest
    else if c.isDigit then some (c :: rest)
    else if c == '.' then some (last :: c :: rest)
    else none

/-- The text without leading zeros; it must begin with a digit or a minus. -/
def dropLeadingZeros (s : List Char) : Option (List Char) :=
  match s with
  | c :: rest =>
    if c == '0' then dropZeros c rest
    else if c.isDigit || c == '-' then some s
    else none
  | [] => none

/-- The text without a point and nothing but zeros behind it. -/
def dropZeroFraction (s : List Char) : List Char :=
  let behind := (s.dropWhile (· != '.')).drop 1
  if !behind.isEmpty && behind.all (· == '0') then s.takeWhile (· != '.') else s

/-- Two underscores stand side by side. -/
def doubleLine : List Char → Bool
  | '_' :: '_' :: _ => true
  | _ :: rest => doubleLine rest
  | [] => false

/-- The text without underscores, if there are some and each stands between two other characters. -/
def dropLines? (s : List Char) : Option (List Char) :=
  if !s.contains '_' || s.head? = some '_' || s.getLast? = some '_' || doubleLine s then none
  else some (s.filter (· != '_'))

/-- A plain integer: digits without leading zeros, and perhaps a minus before them. -/
def plainInteger (s : List Char) : Except Misfit Int :=
  let (negative, ds) :=
    match s with
    | '-' :: rest => (true, rest)
    | s => (false, s)
  if ds.isEmpty || !ds.all Char.isDigit || (ds.head? = some '0' && ds.length > 1) then .error .badInteger
  else if ds.length > Text.digitLimit then .error .hugeInteger
  else .ok (if negative then -(Double.digitsValue ds : Int) else Double.digitsValue ds)

/-- The text without a plus, leading zeros, a fraction of zeros and underscores, if it has any of these. -/
def simpleInteger? (s : List Char) : Option (List Char) := do
  let unsigned :=
    match s with
    | '+' :: rest => if rest.head? = some '-' then [] else rest
    | s => s
  let shorter := dropZeroFraction (← dropLeadingZeros unsigned)
  match dropLines? shorter with
  | some t => some t
  | none => if shorter.length = s.length then none else some shorter

def integerOfText (text : String) : Except Misfit Int :=
  let trimmed := Text.strip Text.isNumberBlank text.toList
  match plainInteger trimmed with
  | .ok n => .ok n
  | .error .hugeInteger => .error .hugeInteger
  | .error m =>
    match simpleInteger? trimmed with
    | some s => plainInteger s
    | none => .error m

def floatBound : Int := 9223372036854775808

/-- The integer that a number with a point is equal to. -/
def integerOfFloat (x : Double) : Except Misfit Int :=
  match x with
  | .finite .. =>
    match x.toInt? with
    | none => .error .fraction
    | some n => if -floatBound < n && n < floatBound then .ok n else .error .hugeInteger
  | _ => .error .notFinite

def integer (v : Value) : Except Misfit Int :=
  match v with
  | .scalar (.int n) => .ok n
  | .scalar (.bool b) => .ok (if b then 1 else 0)
  | .scalar (.text s) => integerOfText s
  | .scalar (.bytes bs) =>
    match Text.decodeStrict? bs with
    | some s => integerOfText (String.ofList s)
    | none => .error .badInteger
  | .scalar (.float x) => integerOfFloat x
  | _ => .error .notInteger

/-! ## Other scalars -/

def floatOfText (text : String) : Except Misfit Double :=
  let s := text.toList
  let trimmed := Text.strip Text.isNumberBlank s
  match Double.readPlain? trimmed with
  | some x => .ok x
  | none =>
    match (dropLines? s).bind Double.readPlain? with
    | some x => .ok x
    | none => .error .badFloat

def float (v : Value) : Except Misfit Double :=
  match v with
  | .scalar (.float x) => .ok x
  | .scalar (.int n) =>
    match Double.ofInt n with
    | .infinite _ => .error .notFloat
    | x => .ok x
  | .scalar (.bool b) => .ok (Double.ofInt (if b then 1 else 0))
  | .scalar (.text s) => floatOfText s
  | .scalar (.bytes bs) =>
    match Text.decodeStrict? bs with
    | some s => floatOfText (String.ofList s)
    | none => .error .badFloat
  | _ => .error .notFloat

def text (v : Value) : Except Misfit String :=
  match v with
  | .scalar (.text s) => .ok s
  | .scalar (.bytes bs) =>
    match Text.decodeStrict? bs with
    | some s => .ok (String.ofList s)
    | none => .error .notUnicode
  | _ => .error .notText

def flagWords : List (String × Bool) :=
  [("0", false), ("off", false), ("f", false), ("false", false), ("n", false), ("no", false), ("1", true),
    ("on", true), ("t", true), ("true", true), ("y", true), ("yes", true)]

/-- The truth value that a text names, in small or capital letters. -/
def flagOfText (s : List Char) : Except Misfit Bool :=
  match flagWords.lookup (String.ofList (s.map Char.toLower)) with
  | some b => .ok b
  | none => .error .badFlag

/-- The truth value of a number, if it is one that fits a machine word. -/
def flagOfInt (n : Int) : Except Misfit Bool :=
  if n = 0 then .ok false
  else if n = 1 then .ok true
  else if -floatBound ≤ n && n < floatBound then .error .badFlag
  else .error .notFlag

def flag (v : Value) : Except Misfit Bool :=
  match v with
  | .scalar (.bool b) => .ok b
  | .scalar (.text s) => flagOfText s.toList
  | .scalar (.bytes bs) =>
    match Text.decodeStrict? bs with
    | some s => flagOfText s
    | none => .error .badFlag
  | .scalar (.int n) => flagOfInt n
  | .scalar (.float x) =>
    match integerOfFloat x with
    | .ok n => flagOfInt n
    | .error _ => .error .notFlag
  | _ => .error .notFlag

/-! ## Checked values -/

def checked {α : Type} (read : Value → Except Misfit α) (v : Value) : Checked α :=
  match read v with
  | .ok a => .ok a
  | .error m => .misfit m

structure Names where
  /-- What the codes stand for. -/
  what : String
  codes : List (String × Int)

/-- The form in which names are compared: without blanks around them, in small letters, and with underscores for
dashes. -/
def nameForm (s : String) : String :=
  String.ofList ((Text.lower (Text.trim s)).toList.map fun c => if c == '-' then '_' else c)

def codeOf (names : Names) (given : String) : Except Misfit Int :=
  match names.codes.lookup (nameForm given) with
  | some code => .ok code
  | none => .error (.unknownName names.what given (names.codes.map (·.1)))

def code (names : Names) (v : Value) : Checked Int :=
  match text v, integer v with
  | .ok s, _ =>
    match codeOf names s with
    | .ok n => .ok n
    | .error m => .misfit m
  | .error _, .ok n => .ok n
  | .error m, .error m' => .errors [⟨[.name "str"], m⟩, ⟨[.name "int"], m'⟩]

/-! ## Fields and containers -/

/-- The entry of a mapping with a name, checked if it is there. -/
def field {α : Type} (vs : Values) (entries : List (Scalar × Nat)) (name : String) (usual : α)
    (check : Value → Checked α) : Checked α :=
  match entries.lookup (.text name) with
  | some n => (check (vs.get n)).under (.name name)
  | none => .ok usual

/-- The values of a list; the other containers that are no mappings hold no records. -/
def items? (v : Value) : Option (List (Option Nat)) :=
  match v with
  | .list items => some (items.map some)
  | .pairs entries => some (entries.map fun _ => none)
  | .set keys => some (keys.map fun _ => none)
  | _ => none

/-- The step to the entry with a key: the name, the number if it fits a machine word, or else the key as a
message shows it. -/
def stepTo (key : Scalar) : Step :=
  match key with
  | .text s => .name s
  | .bool b => .number (if b then 1 else 0)
  | .int n => if -floatBound ≤ n && n < floatBound then .number n else .name key.shown
  | _ => .name key.shown

end Thumbnailer.Field
