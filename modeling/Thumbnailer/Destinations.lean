import Thumbnailer.OrderedMap
import Thumbnailer.Path

/-!
# Destinations of several inputs

When there are several inputs, the outputs of each go into a directory that is named after it. Inputs with the
same name are told apart by a number.
-/

namespace Thumbnailer

/-- The name of an input: that of its file without the extension. -/
def inputStem (input : String) : String :=
  let stem := Path.stem (String.ofList (Path.dropSlashes input.toList))
  if stem.isEmpty then "input" else stem

/-- A name with a number behind it. -/
def numbered (stem : String) (n : Nat) : String := s!"{stem}-{n}"

/-- The names given so far, each with the highest number tried behind it. -/
abbrev NamesGiven := OrderedMap String Nat

/-- Tries the numbers above `tried` until the numbered name is free. The fuel is one more than the count of names. -/
def freeNumber (given : NamesGiven) (stem : String) (fuel tried : Nat) : Nat :=
  match fuel with
  | 0 => tried
  | fuel + 1 =>
    if (given.get? (numbered stem (tried + 1))).isSome then freeNumber given stem fuel (tried + 1)
    else tried + 1

/-- Gives an input a name: its own if that is free, and else one with a number behind it. -/
def nameInput (given : NamesGiven) (stem : String) : String × NamesGiven :=
  match given.get? stem with
  | none => (stem, given.insert stem 1)
  | some tried =>
    let n := freeNumber given stem (given.length + 1) tried
    (numbered stem n, (given.insert stem n).insert (numbered stem n) 1)

def nameInputs (given : NamesGiven) : List String → List String
  | [] => []
  | input :: rest =>
    let (name, given) := nameInput given (inputStem input)
    name :: nameInputs given rest

def directoryNames (inputs : List String) : List String := nameInputs [] inputs

/-- The destination of an output for an input with a directory of its own. -/
def destinationIn (subdirectory destination : String) : String :=
  if subdirectory.isEmpty then destination
  else Path.join (Path.join (Path.directory destination) subdirectory) (Path.base destination)

end Thumbnailer
