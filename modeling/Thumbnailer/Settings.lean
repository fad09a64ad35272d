import Thumbnailer.FileTree
import Thumbnailer.Interval
import Thumbnailer.Plan
import Thumbnailer.Settings.Checked
import Thumbnailer.Text.Utf8

/-!
# Settings files

A settings file is a YAML text with a mapping in it. How such a text is read and how the types of its fields are
checked is up to libraries: a format is what they do.
-/

namespace Thumbnailer

/-- An output as a settings file describes it. The interval is in seconds. -/
structure OutputSettings where
  kind : Int := Kind.thumbs.code
  seconds : Double := Double.ofInt 1
  width : Int := -1
  height : Int := -1
  behavior : Int := Behavior.none.code
  columns : Int := 1
  rows : Int := 1
  quality : Int := 0
  destination : String := defaultDestination
deriving DecidableEq, Repr

structure Settings where
  program : Option String := none
  concurrency : Int := defaultCapacity
  headers : Headers := []
  silent : Bool := false
  outputs : List OutputSettings := []
deriving DecidableEq, Repr

/-! ## Formats -/

/-- The kinds of errors that a library raises where it promises another one or none. -/
inductive ErrorKind where
  | value
  | overflow
  | index
  | key
  | attribute
  | other
deriving DecidableEq, Repr

/-- Why a library gives no data for the bytes of a file. -/
inductive LoadError where
  /-- The bytes are no text. -/
  | notUnicode
  /-- The text is no YAML. -/
  | malformed
  /-- An error that is none of the library's own. -/
  | stray (kind : ErrorKind) (message : String)
deriving DecidableEq, Repr

/-- What the libraries do that read YAML and check the types of fields. -/
structure Settings.Format where
  /-- What stands in a text. -/
  Data : Type
  load : List UInt8 → Except LoadError Data
  isNothing : Data → Bool
  isMapping : Data → Bool
  /-- A mapping without entries. -/
  empty : Data
  /-- The settings in a mapping, or all that is wrong with its fields. -/
  validate : Data → Except (List FieldError) Settings
  /-- Loading reads all bytes. -/
  text_of_load : ∀ {bytes : List UInt8} {d : Data}, load bytes = .ok d → ∃ text, Text.decodeStrict? bytes = some text
  no_text_of_load : ∀ {bytes : List UInt8}, load bytes = .error .notUnicode → Text.decodeStrict? bytes = none
  isMapping_empty : isMapping empty = true
  /-- Fields that are not there have their usual values. -/
  validate_empty : validate empty = .ok {}

/-! ## Files -/

/-- Why a file gives no settings. -/
inductive SettingsError where
  /-- The file cannot be read. -/
  | unreadable (path : String) (reason : SystemError)
  | badPath
  /-- The bytes of the file are no text. -/
  | notUnicode
  /-- The text is no YAML. -/
  | malformed (path : String)
  /-- An error that the library passes on. -/
  | stray (kind : ErrorKind) (message : String)
  | noMapping (path : String)
  /-- Some fields do not have fitting values. -/
  | misfits (path : String) (errors : List FieldError)
deriving DecidableEq, Repr

def SettingsError.message : SettingsError → String
  | .unreadable path reason => s!"cannot read settings file {path}: {reason.message path}"
  | .badPath => PathError.nullCharacter.message
  | .notUnicode => "not utf-8"
  | .malformed path => s!"invalid YAML in {path}"
  | .stray _ message => message
  | .noMapping path => s!"settings file {path} must contain a mapping"
  | .misfits path _ => s!"invalid settings in {path}"

def LoadError.settingsError (path : String) : LoadError → SettingsError
  | .notUnicode => .notUnicode
  | .malformed => .malformed path
  | .stray kind message => .stray kind message

namespace Settings

variable (f : Format)

/-- A file with nothing in it counts as a mapping without entries. -/
def Format.mapping (d : f.Data) : f.Data := if f.isNothing d then f.empty else d

def ofData (path : String) (d : f.Data) : Except SettingsError Settings :=
  if f.isMapping (f.mapping d) then (f.validate (f.mapping d)).mapError (.misfits path)
  else .error (.noMapping path)

def ofBytes (path : String) (bytes : List UInt8) : Except SettingsError Settings :=
  match f.load bytes with
  | .error e => .error (e.settingsError path)
  | .ok d => ofData f path d

def loaded (path : String) (s : Settings) : Record :=
  { level := .debug, message := s!"Loaded {s.outputs.length} output(s) from {path}" }

/-- The settings in a file, given what reading it gives. -/
def ofFile (path : String) (content : Except PathError (List UInt8)) :
    Except SettingsError (Settings × Record) :=
  match content with
  | .error .nullCharacter => .error .badPath
  | .error (.refused reason _) => .error (.unreadable path reason)
  | .ok bytes => (ofBytes f path bytes).map fun s => (s, s.loaded path)

def read (t : FileTree) (file : String) : Except SettingsError (Settings × Record) :=
  ofFile f (Path.normal file) (t.read (Path.normal file))

end Settings

/-! ## Configurations -/

/-- The output with its interval in microseconds. -/
def OutputSettings.output (o : OutputSettings) : Except IntervalError Output :=
  (Interval.ofSeconds o.seconds).map fun interval =>
    { kind := o.kind, interval, scale := { width := o.width, height := o.height, behavior := o.behavior }
      columns := o.columns, rows := o.rows, quality := o.quality, destination := o.destination }

/-- The configuration that settings describe. -/
def Settings.config (s : Settings) : Except IntervalError Config :=
  (s.outputs.mapM OutputSettings.output).map fun outputs =>
    { outputs, program := s.program, concurrency := s.concurrency, headers := s.headers, silent := s.silent }

end Thumbnailer
