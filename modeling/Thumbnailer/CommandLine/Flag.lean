import Thumbnailer.Text.Digit
import Thumbnailer.Text.Quoted

/-!
# Flags

The flags of the command line, and words of the command line that name them. A long spelling may be cut short
as long as it fits one flag only; what belongs to a flag may follow an equals sign, or stand right behind a short
spelling.
-/

namespace Thumbnailer.CommandLine

inductive Flag where
  | help
  | input
  | settings
  | interval
  | width
  | height
  | behavior
  | kind
  | rows
  | columns
  | quality
  | destination
  | concurrency
  | program
  | header
  | noProgress
  | verbose
deriving DecidableEq, Repr

namespace Flag

def all : List Flag :=
  [.help, .input, .settings, .interval, .width, .height, .behavior, .kind, .rows, .columns, .quality,
    .destination, .concurrency, .program, .header, .noProgress, .verbose]

def spellings : Flag → List String
  | .help => ["-h", "--help"]
  | .input => ["-i", "--input"]
  | .settings => ["--config"]
  | .interval => ["--interval"]
  | .width => ["--width"]
  | .height => ["--height"]
  | .behavior => ["--behavior"]
  | .kind => ["--type"]
  | .rows => ["--rows"]
  | .columns => ["--cols"]
  | .quality => ["--quality"]
  | .destination => ["--dst"]
  | .concurrency => ["--concurrency"]
  | .program => ["--ffmpeg"]
  | .header => ["--header"]
  | .noProgress => ["--no-progress"]
  | .verbose => ["-v", "--verbose"]

/-- The flag as messages name it. -/
def name (f : Flag) : String := "/".intercalate f.spellings

def takesValue : Flag → Bool
  | .help | .noProgress | .verbose => false
  | _ => true

def spelled : List (String × Flag) := all.flatMap fun f => f.spellings.map fun s => (s, f)

def ofSpelling? (s : String) : Option Flag := spelled.lookup s

end Flag

/-- Why a command line cannot be read. -/
inductive UsageError where
  /-- A shortened spelling fits several flags. -/
  | ambiguous (word : String) (candidates : List String)
  | missingValue (flag : Flag)
  /-- A value is given to a flag that takes none. -/
  | unexpectedValue (flag : Flag) (value : String)
  | badInteger (flag : Flag) (value : String)
  | badNumber (flag : Flag) (value : String)
  | unknownChoice (flag : Flag) (value : String) (choices : List String)
  | missingInput
  /-- Words that belong to no flag. -/
  | unrecognized (words : List String)
deriving DecidableEq, Repr

def UsageError.message : UsageError → String
  | .ambiguous word candidates => s!"ambiguous option: {word} could match " ++ ", ".intercalate candidates
  | .missingValue flag => s!"argument {flag.name}: expected one argument"
  | .unexpectedValue flag value => s!"argument {flag.name}: ignored explicit argument {Text.quoted value}"
  | .badInteger flag value => s!"argument {flag.name}: invalid int value: {Text.quoted value}"
  | .badNumber flag value => s!"argument {flag.name}: invalid float value: {Text.quoted value}"
  | .unknownChoice flag value choices =>
    let listed := ", ".intercalate (choices.map Text.quoted)
    s!"argument {flag.name}: invalid choice: {Text.quoted value} (choose from {listed})"
  | .missingInput => s!"the following arguments are required: {Flag.input.name}"
  | .unrecognized words => "unrecognized arguments: " ++ " ".intercalate words

/-! ## Words -/

/-- What stands in the same word behind the spelling of a flag, and whether an equals sign stands between. -/
structure Attached where
  text : List Char
  equals : Bool
deriving DecidableEq, Repr

inductive Word where
  /-- It names no flag. -/
  | plain (text : String)
  /-- Behind this word no flags are named. -/
  | separator
  | flag (flag : Flag) (spelling : String) (attached : Option Attached)
  /-- It looks like a flag, but there is no such one. -/
  | unknown (text : String)
deriving DecidableEq, Repr

def isDigit (c : Char) : Bool := (Text.digitValue? c).isSome

/-- The word is a negative number: digits, and a point before the last of them if there is one. -/
def isNegativeNumber (s : List Char) : Bool :=
  let s := if s.getLast? = some '\n' then s.dropLast else s
  match s with
  | '-' :: rest =>
    match rest.dropWhile isDigit with
    | [] => !rest.isEmpty
    | '.' :: fraction => !fraction.isEmpty && fraction.all isDigit
    | _ => false
  | _ => false

/-- The part of a word before an equals sign, and what stands behind it. -/
def splitEquals (s : List Char) : List Char × Option Attached :=
  match s.dropWhile (· != '=') with
  | [] => (s, none)
  | _ :: behind => (s.takeWhile (· != '='), some ⟨behind, true⟩)

/-- The flags that a word beginning with a dash may mean, if it is not a spelling itself. -/
def candidates (s : List Char) : List (String × Flag × Option Attached) :=
  match s with
  | '-' :: '-' :: _ =>
    let (start, attached) := splitEquals s
    (Flag.spelled.filter fun p => start.isPrefixOf p.1.toList).map fun p => (p.1, p.2, attached)
  | dash :: letter :: rest =>
    (Flag.spelled.filter fun p => p.1.toList == [dash, letter]).map fun p => (p.1, p.2, some ⟨rest, false⟩)
  | _ => []

def dashedWord (text : String) : Except UsageError Word :=
  let s := text.toList
  let (start, attached) := splitEquals s
  match attached, Flag.ofSpelling? (String.ofList start) with
  | some attached, some f => .ok (.flag f (String.ofList start) (some attached))
  | _, _ =>
    match candidates s with
    | [(spelling, f, attached)] => .ok (.flag f spelling attached)
    | [] => .ok (if isNegativeNumber s || s.contains ' ' then .plain text else .unknown text)
    | several => .error (.ambiguous text (several.map (·.1)))

def wordOf (text : String) : Except UsageError Word :=
  if text.toList.head? != some '-' then .ok (.plain text)
  else
    match Flag.ofSpelling? text with
    | some f => .ok (.flag f text none)
    | none => if text = "-" then .ok (.plain text) else dashedWord text

def wordsOf : List String → Except UsageError (List Word)
  | [] => .ok []
  | text :: rest =>
    if text = "--" then .ok (.separator :: rest.map .plain)
    else do return (← wordOf text) :: (← wordsOf rest)

end Thumbnailer.CommandLine
