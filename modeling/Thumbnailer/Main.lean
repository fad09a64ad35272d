import Thumbnailer.CommandLine.Run

/-!
# The command

Prints the encoder commands that generate the outputs of all inputs, one on a line.
-/

namespace Thumbnailer.CommandLine

def contentOf (file : String) : IO (Except PathError (List UInt8)) := do
  if file.toList.contains '\x00' then return .error .nullCharacter
  try
    return .ok (← IO.FS.readBinFile file).toList
  catch e =>
    let reason :=
      match e with
      | .noFileOrDirectory .. => SystemError.noEntry
      | .inappropriateType .. => SystemError.isDirectory
      | e => ⟨0, toString e⟩
    return .error (.refused reason file)

def settingsOf (file : String) : IO (Except SettingsError (Settings × Record)) := do
  return Settings.ofFile .yaml file (← contentOf file)

def commandsOf (p : Plan) (inputs : List String) : List String :=
  (subdirectories inputs).map fun (media, subdirectory) =>
    Text.shellCommand (p.args media (destinationsIn p subdirectory))

/-- Prints the commands for all inputs, or what is wrong with the outputs. -/
def printCommands (c : Config) (inputs : List String) : IO UInt32 := do
  match Plan.ofConfig (c.program.getD defaultProgram) c with
  | .error e =>
    IO.eprintln e.message
    return 2
  | .ok p =>
    (commandsOf p inputs).forM IO.println
    return 0

end Thumbnailer.CommandLine

open Thumbnailer CommandLine

def main (words : List String) : IO UInt32 := do
  match parse words with
  | .error .help =>
    IO.println Exit.help.message
    return 0
  | .error e =>
    IO.eprintln e.message
    return e.code.toUInt32
  | .ok a =>
    let settings ←
      match a.settings with
      | some file => settingsOf file
      | none => pure (.error .badPath)
    match (a.configuration fun _ => settings).1 with
    | .error e =>
      IO.eprintln e.message
      return 2
    | .ok c => printCommands c a.inputs
