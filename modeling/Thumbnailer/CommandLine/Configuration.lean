import Thumbnailer.CommandLine.Arguments

/-!
# The configuration of a command line

The outputs come from the settings file if there is one, and else there is a single output that the flags
describe. The other flags change the configuration that the file gives.
-/

namespace Thumbnailer.CommandLine

inductive ConfigurationError where
  | settings (reason : SettingsError)
  | interval (reason : IntervalError)
  | header (reason : HeaderError)
deriving DecidableEq, Repr

def ConfigurationError.message : ConfigurationError → String
  | .settings reason => reason.message
  | .interval reason => reason.message
  | .header reason => reason.message

def codeOf (names : Field.Names) (name : String) : Int := (names.codes.lookup name).getD 0

namespace Arguments

def output (a : Arguments) : Except IntervalError Output :=
  (Interval.ofSeconds a.interval).map fun interval =>
    { kind := codeOf Kind.names a.kind, interval
      scale := { width := a.width, height := a.height, behavior := codeOf Behavior.names a.behavior }
      columns := a.columns, rows := a.rows, quality := a.quality, destination := a.destination }

/-- The configuration that the flags alone describe. -/
def ownConfiguration (a : Arguments) : Except ConfigurationError Config :=
  match a.output with
  | .ok o => .ok { outputs := [o], program := a.program }
  | .error reason => .error (.interval reason)

def program? (a : Arguments) : Option String := a.program.filter fun p => !p.isEmpty

def fileConfiguration (a : Arguments) (settings : Except SettingsError (Settings × Record)) :
    Except ConfigurationError Config × List Record :=
  match settings with
  | .error reason => (.error (.settings reason), [])
  | .ok (s, loaded) =>
    match s.config with
    | .error reason => (.error (.interval reason), [loaded])
    | .ok c => (.ok { c with program := a.program?.or c.program }, [loaded])

/-- Changes a configuration as the flags say. -/
def adjust (a : Arguments) (c : Config) : Except ConfigurationError Config :=
  match Headers.parse a.headers with
  | .error reason => .error (.header reason)
  | .ok headers =>
    .ok { c with
      concurrency := a.concurrency.getD c.concurrency
      headers := c.headers.insertAll headers
      silent := c.silent || a.noProgress }

/-- The configuration of a command line, with what is logged on the way to it; `read` reads a settings file. -/
def configuration (a : Arguments) (read : String → Except SettingsError (Settings × Record)) :
    Except ConfigurationError Config × List Record :=
  let (c, records) :=
    match a.settings with
    | some file => a.fileConfiguration (read file)
    | none => (a.ownConfiguration, [])
  (c.bind a.adjust, records)

end Arguments

end Thumbnailer.CommandLine
