import Thumbnailer.Settings
import Thumbnailer.Settings.Field

/-!
# The YAML format

The format in which the program reads its settings files. Keys without a meaning are ignored, and everything that is
wrong with the fields is listed.
-/

namespace Thumbnailer

/-! ## Names -/

def Kind.names : Field.Names where
  what := "output type"
  codes := [("thumbs", Kind.thumbs.code), ("thumbnails", Kind.thumbs.code), ("sprites", Kind.sprites.code)]

def Behavior.names : Field.Names where
  what := "scale behavior"
  codes := [("none", Behavior.none.code), ("fill", Behavior.fill.code),
    ("fill_to_keep_aspect_ratio", Behavior.fill.code), ("crop", Behavior.crop.code),
    ("crop_to_fit", Behavior.crop.code)]

/-! ## Reading -/

open Yaml

def OutputSettings.ofValue (vs : Values) (v : Value) : Checked OutputSettings :=
  match v with
  | .mapping entries =>
    let usual : OutputSettings := {}
    OutputSettings.mk
      <$> Field.field vs entries "type" usual.kind (Field.code Kind.names)
      <*> Field.field vs entries "interval" usual.seconds (Field.checked Field.float)
      <*> Field.field vs entries "width" usual.width (Field.checked Field.integer)
      <*> Field.field vs entries "height" usual.height (Field.checked Field.integer)
      <*> Field.field vs entries "behavior" usual.behavior (Field.code Behavior.names)
      <*> Field.field vs entries "columns" usual.columns (Field.checked Field.integer)
      <*> Field.field vs entries "rows" usual.rows (Field.checked Field.integer)
      <*> Field.field vs entries "quality" usual.quality (Field.checked Field.integer)
      <*> Field.field vs entries "dst" usual.destination (Field.checked Field.text)
  | _ => .misfit .notRecord

def readOutputs (vs : Values) (v : Value) : Checked (List OutputSettings) :=
  match Field.items? v with
  | some items =>
    .all (items.zipIdx.map fun (item, i) =>
      (match item with
      | some n => OutputSettings.ofValue vs (vs.get n)
      | none => .misfit .notRecord).under (.number i))
  | none => .misfit .notList

def headerOf (vs : Values) (entry : Scalar × Nat) : Checked (String × String) :=
  (Prod.mk
    <$> (Field.checked Field.text (.scalar entry.1)).under (.name "[key]")
    <*> Field.checked Field.text (vs.get entry.2)).under (Field.stepTo entry.1)

def headersOf (vs : Values) (v : Value) : Checked Headers :=
  match v with
  | .mapping entries => OrderedMap.ofList <$> .all (entries.map (headerOf vs))
  | _ => .misfit .notMapping

/-- Reads a program, which need not be named. -/
def programOf (v : Value) : Checked (Option String) :=
  match v with
  | .scalar .null => .ok none
  | v => some <$> Field.checked Field.text v

/-- Reads settings from a mapping. -/
def Settings.ofEntries (vs : Values) (entries : List (Scalar × Nat)) : Checked Settings :=
  let usual : Settings := {}
  Settings.mk
    <$> Field.field vs entries "ffmpeg_path" usual.program programOf
    <*> Field.field vs entries "concurrency" usual.concurrency (Field.checked Field.integer)
    <*> Field.field vs entries "headers" usual.headers (headersOf vs)
    <*> Field.field vs entries "disable_progress_logs" usual.silent (Field.checked Field.flag)
    <*> Field.field vs entries "outputs" usual.outputs (readOutputs vs)

/-! ## The format -/

/-- The kind of error as which a fault is passed on. -/
def Yaml.Fault.kind : Fault → ErrorKind
  | .badCode code => if code < machineLimit then .value else .overflow
  | .emptyNumber => .index
  | .badBoolean _ => .key
  | .badTimestamp => .attribute
  | .tooManyPlaces => .overflow
  | _ => .value

def Yaml.Fault.loadError : Fault → LoadError
  | .malformed => .malformed
  | f => .stray f.kind f.message

def Yaml.Values.ofBytes (bytes : List UInt8) : Except LoadError Values :=
  match Text.decodeStrict? bytes with
  | none => .error .notUnicode
  | some text => (read text).mapError Fault.loadError

namespace Settings

def ofValues (vs : Values) : Checked Settings :=
  match vs.top with
  | .mapping entries => ofEntries vs entries
  | _ => .misfit .notRecord

def Format.yaml : Format where
  Data := Values
  load := Values.ofBytes
  isNothing vs := vs.top = .scalar .null
  isMapping vs :=
    match vs.top with
    | .mapping _ => true
    | _ => false
  empty := ⟨#[some (.mapping [])], 0⟩
  validate := ofValues
  text_of_load {bytes d} h := by
    unfold Values.ofBytes at h
    split at h
    · cases h
    · exact ⟨_, by assumption⟩
  no_text_of_load {bytes} h := by
    unfold Values.ofBytes at h
    split at h
    · assumption
    next text _ =>
      cases hread : Values.read text with
      | ok vs =>
        rw [hread] at h
        cases h
      | error f =>
        rw [hread] at h
        cases f <;> cases h
  isMapping_empty := rfl
  validate_empty := rfl

end Settings

end Thumbnailer
