import Thumbnailer.CommandLine.Flag
import Thumbnailer.Number.Reading
import Thumbnailer.Path
import Thumbnailer.Settings.Yaml

/-!
# Arguments

What a command line says, with the usual values for what it does not say.
-/

namespace Thumbnailer.CommandLine

/-- The values of all flags. -/
structure Arguments where
  inputs : List String := []
  /-- The settings file in its normal form. -/
  settings : Option String := none
  /-- In seconds. -/
  interval : Double := Double.ofInt 7
  width : Int := 320
  height : Int := 180
  behavior : String := "none"
  kind : String := "thumbs"
  rows : Int := 8
  columns : Int := 8
  quality : Int := 0
  destination : String := "thumbs/%04d.jpg"
  concurrency : Option Int := none
  program : Option String := none
  headers : List String := []
  noProgress : Bool := false
  verbose : Bool := false
deriving DecidableEq, Repr

def choices (names : Field.Names) : List String := (names.codes.map (·.1)).mergeSort fun a b => !(b < a)

def integerFor (f : Flag) (value : String) : Except UsageError Int :=
  match Text.readInteger value with
  | .ok n => .ok n
  | .error _ => .error (.badInteger f value)

def numberFor (f : Flag) (value : String) : Except UsageError Double :=
  match Double.read? value with
  | some x => .ok x
  | none => .error (.badNumber f value)

def choiceFor (f : Flag) (names : Field.Names) (value : String) : Except UsageError String :=
  if (names.codes.lookup value).isSome then .ok value else .error (.unknownChoice f value (choices names))

namespace Arguments

def raise (a : Arguments) (f : Flag) : Arguments :=
  match f with
  | .noProgress => { a with noProgress := true }
  | .verbose => { a with verbose := true }
  | _ => a

/-- Gives a flag its value. Inputs and headers add up; of other flags the last value counts. -/
def give (a : Arguments) (f : Flag) (value : String) : Except UsageError Arguments :=
  match f with
  | .input => .ok { a with inputs := a.inputs ++ [value] }
  | .settings => .ok { a with settings := some (Path.normal value) }
  | .interval => (numberFor f value).map fun interval => { a with interval }
  | .width => (integerFor f value).map fun width => { a with width }
  | .height => (integerFor f value).map fun height => { a with height }
  | .behavior => (choiceFor f Behavior.names value).map fun behavior => { a with behavior }
  | .kind => (choiceFor f Kind.names value).map fun kind => { a with kind }
  | .rows => (integerFor f value).map fun rows => { a with rows }
  | .columns => (integerFor f value).map fun columns => { a with columns }
  | .quality => (integerFor f value).map fun quality => { a with quality }
  | .destination => .ok { a with destination := value }
  | .concurrency => (integerFor f value).map fun n => { a with concurrency := some n }
  | .program => .ok { a with program := some value }
  | .header => .ok { a with headers := a.headers ++ [value] }
  | .help | .noProgress | .verbose => .ok a

end Arguments

/-! ## Reading -/

/-- Why a command line is not carried out: help was asked for, or it cannot be read. -/
inductive Exit where
  | help
  | usage (reason : UsageError)
deriving DecidableEq, Repr

/-- Flags with their values, in order; flags of one word are given together. -/
abbrev Given := List (Flag × Option String)

/-- Takes the flags of a group apart, in which short spellings share one dash. The last of them may take what
is left as its value. The result tells the flags, the last one if its value is still to come, and what is
left over. -/
def takeGroup (f : Flag) (short : Bool) (equals : Bool) (given : Given) :
    List Char → Except UsageError (Given × Option Flag × List String)
  | [] =>
    if f.takesValue then .ok (given ++ [(f, some "")], none, [])
    else .error (.unexpectedValue f "")
  | c :: rest =>
    if f.takesValue then .ok (given ++ [(f, some (String.ofList (c :: rest)))], none, [])
    else if !short || equals || c == '-' then .error (.unexpectedValue f (String.ofList (c :: rest)))
    else
      let given := given ++ [(f, none)]
      match Flag.ofSpelling? (String.ofList ['-', c]) with
      | none => .ok (given, none, [String.ofList ('-' :: c :: rest)])
      | some g =>
        match rest with
        | [] => if g.takesValue then .ok (given, some g, []) else .ok (given ++ [(g, none)], none, [])
        | '=' :: behind => takeGroup g true true given behind
        | rest => takeGroup g true false given rest
termination_by s => s.length
decreasing_by all_goals (simp only [List.length_cons]; omega)

structure Reading where
  arguments : Arguments := {}
  /-- Words that belong to no flag. -/
  extra : List String := []

def Reading.giveAll (r : Reading) : Given → Except Exit Reading
  | [] => .ok r
  | (.help, _) :: _ => .error .help
  | (f, none) :: rest => giveAll { r with arguments := r.arguments.raise f } rest
  | (f, some value) :: rest =>
    match r.arguments.give f value with
    | .error e => .error (.usage e)
    | .ok arguments => giveAll { r with arguments } rest

/-- The flags that a word names, the last one if its value is still to come, and what is left over. -/
def flagsOf (f : Flag) (spelling : String) :
    Option Attached → Except UsageError (Given × Option Flag × List String)
  | none => .ok (if f.takesValue then ([], some f, []) else ([(f, none)], none, []))
  | some a => takeGroup f (spelling.length = 2) a.equals [] a.text

def Reading.readAll (r : Reading) : List Word → Except Exit Reading
  | [] => .ok r
  | .plain text :: rest => readAll { r with extra := r.extra ++ [text] } rest
  | .separator :: rest => readAll { r with extra := r.extra ++ ["--"] } rest
  | .unknown text :: rest => readAll { r with extra := r.extra ++ [text] } rest
  | .flag f spelling attached :: rest =>
    match flagsOf f spelling attached with
    | .error e => .error (.usage e)
    | .ok (given, none, left) => do
      readAll (← { r with extra := r.extra ++ left }.giveAll given) rest
    | .ok (given, some g, _) =>
      match rest with
      | .plain value :: rest => do readAll (← r.giveAll (given ++ [(g, some value)])) rest
      | _ => .error (.usage (.missingValue g))

/-- Reads a command line. At least one input must be given, and every word must belong to a flag. -/
def parse (words : List String) : Except Exit Arguments := do
  let words ←
    match wordsOf words with
    | .ok words => pure words
    | .error e => throw (.usage e)
  let r ← Reading.readAll {} words
  if r.arguments.inputs.isEmpty then throw (.usage .missingInput)
  if !r.extra.isEmpty then throw (.usage (.unrecognized r.extra))
  return r.arguments

end Thumbnailer.CommandLine
