import Thumbnailer.Yaml.Moment

/-!
# Tags

A tag says what a node is. A plain scalar without one gets its tag from its text.
-/

namespace Thumbnailer.Yaml

/-- The tags with a meaning; all others are one. -/
inductive Tag where
  | null
  | bool
  | int
  | float
  | binary
  | timestamp
  | orderedMap
  | pairs
  | set
  | text
  | sequence
  | mapping
  /-- A key whose value is merged into the mapping. -/
  | merge
  /-- A key whose value stands for the mapping. -/
  | default
  | other
deriving DecidableEq, Repr

namespace Tag

/-- What the names of the tags with a meaning begin with. -/
def space : String := "tag:yaml.org,2002:"

def names : List (String × Tag) :=
  [("null", .null), ("bool", .bool), ("int", .int), ("float", .float), ("binary", .binary),
    ("timestamp", .timestamp), ("omap", .orderedMap), ("pairs", .pairs), ("set", .set), ("str", .text),
    ("seq", .sequence), ("map", .mapping), ("merge", .merge), ("value", .default)]

def ofName (name : String) : Tag :=
  match space.toList.isPrefixOf? name.toList with
  | some rest => (names.lookup (String.ofList rest)).getD .other
  | none => .other

end Tag

/-! ## Forms of plain scalars -/

def unsigned : List Char → List Char
  | '+' :: rest => rest
  | '-' :: rest => rest
  | s => s

def isDigitOrLine (c : Char) : Bool := c.isDigit || c == '_'

def isNumeral (s : List Char) : Bool :=
  match s with
  | c :: rest => c.isDigit && rest.all isDigitOrLine
  | [] => false

/-- A numeral that does not begin with zero. -/
def isLeadingNumeral (s : List Char) : Bool := isNumeral s && s.head? != some '0'

/-- Up to two digits for a number below sixty. -/
def isSixty : List Char → Bool
  | [a] => a.isDigit
  | [a, b] => '0' ≤ a && a ≤ '5' && b.isDigit
  | _ => false

/-- Places of a number in base sixty with colons between them; `first` is the form of the first place. -/
def isSexagesimal (first : List Char → Bool) (s : List Char) : Bool :=
  match s.splitOn ':' with
  | a :: b :: rest => first a && (b :: rest).all isSixty
  | _ => false

/-- Nothing, or an exponent, whose sign must be written. -/
def isExponent : List Char → Bool
  | [] => true
  | e :: sign :: d :: rest => (e == 'e' || e == 'E') && (sign == '+' || sign == '-') && (d :: rest).all Char.isDigit
  | _ => false

def isFraction (s : List Char) : Bool := isExponent (s.dropWhile isDigitOrLine)

/-- One of the spellings of a word: small letters, capitals, or a capital first. -/
def spells (word : String) (s : List Char) : Bool :=
  let small := word.toList
  let large := small.map Char.toUpper
  s == small || s == large || s == large.take 1 ++ small.drop 1

def boolWords : List (String × Bool) :=
  [("yes", true), ("no", false), ("true", true), ("false", false), ("on", true), ("off", false)]

def looksBool (s : List Char) : Bool := boolWords.any fun w => spells w.1 s

/-- A number with a point, an infinity or no number. -/
def looksFloat (s : List Char) : Bool :=
  let body := unsigned s
  let whole := body.takeWhile (· != '.')
  match body.dropWhile (· != '.') with
  | '.' :: rest =>
    (isNumeral whole && isFraction rest) ||
    (isSexagesimal isNumeral whole && rest.all isDigitOrLine) ||
    (whole.isEmpty && spells "inf" rest) ||
    (s.head? == some '.' && (rest == "nan".toList || rest == "NaN".toList || rest == "NAN".toList ||
      ((rest.head?.any Char.isDigit) && isFraction rest)))
  | _ => false

/-- An integer in one of its bases. -/
def looksInt (s : List Char) : Bool :=
  let filled (p : Char → Bool) (ds : List Char) : Bool := !ds.isEmpty && ds.all fun c => c == '_' || p c
  match unsigned s with
  | '0' :: 'b' :: rest => filled (fun c => c == '0' || c == '1') rest
  | '0' :: 'x' :: rest => filled (fun c => c.isDigit || ('a' ≤ c && c ≤ 'f') || ('A' ≤ c && c ≤ 'F')) rest
  | ['0'] => true
  | '0' :: rest => filled (fun c => '0' ≤ c && c ≤ '7') rest
  | body => isLeadingNumeral body || isSexagesimal isLeadingNumeral body

def looksNull (s : List Char) : Bool := s.isEmpty || s == ['~'] || spells "null" s

/-- The tag of a scalar that is known by its text only. One newline may follow the text of all but the empty
one. -/
def Tag.ofPlain (text : String) : Tag :=
  let s := text.toList
  let s := if s.length > 1 && s.getLast? = some '\n' then s.dropLast else s
  if looksBool s then .bool
  else if looksFloat s then .float
  else if looksInt s then .int
  else if s == "<<".toList then .merge
  else if looksNull s then .null
  else if isMoment text then .timestamp
  else if s == ['='] then .default
  else if s == ['!'] || s == ['&'] || s == ['*'] then .other
  else .text

end Thumbnailer.Yaml
