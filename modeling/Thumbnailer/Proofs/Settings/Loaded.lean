import Thumbnailer.Proofs.Text.Utf8
import Thumbnailer.Proofs.Yaml.Constructed
import Thumbnailer.Settings.Yaml

/-!
# Loading settings

What comes of a settings file, whatever its bytes are and whatever format reads them. A file that cannot be used is
reported as such, but for three kinds of error that are passed on as they come.
-/

namespace Thumbnailer

/-- The error says that a file gives no settings; the others come from reading and are passed on. -/
def SettingsError.isConfigurationError : SettingsError → Bool
  | .badPath | .notUnicode | .stray .. => false
  | _ => true

namespace FileTree

variable {t : FileTree} {path : String}

theorem read_nullCharacter_iff : t.read path = .error .nullCharacter ↔ '\x00' ∈ path.toList := by
  unfold read
  split
  · next h => simpa using h
  · next h =>
    have hno : '\x00' ∉ path.toList := by simpa using h
    split <;> simp [hno]

theorem path_of_refused {path' : String} {reason : SystemError} (h : t.read path = .error (.refused reason path')) :
    path' = path := by
  unfold read at h
  split at h
  · cases h
  · split at h <;> cases h <;> rfl

end FileTree

namespace Settings

variable {f : Format} {t : FileTree} {path file : String} {bytes : List UInt8} {d : f.Data}

/-! ## Formats -/

/-- Bytes that are no text are always reported as such, whatever else is wrong with them. -/
def Format.Strict (f : Format) : Prop :=
  ∀ bytes, (∀ text, bytes ≠ Text.encode text) → f.load bytes = .error .notUnicode

theorem Format.encode_of_load (h : f.load bytes = .ok d) : ∃ text, bytes = Text.encode text := by
  obtain ⟨text, htext⟩ := f.text_of_load h
  exact ⟨text, Text.decodeStrict?_eq_some_iff.1 htext⟩

theorem Format.ne_encode_of_load (h : f.load bytes = .error .notUnicode) (text : List Char) :
    bytes ≠ Text.encode text := by
  intro heq
  cases (f.no_text_of_load h).symm.trans (Text.decodeStrict?_eq_some_iff.2 heq)

@[simp] theorem Format.mapping_of_nothing (h : f.isNothing d = true) : f.mapping d = f.empty := if_pos h

/-! ## What can come of a file -/

/-- A file that can be read and loaded has data in it. -/
def Holds (f : Format) (t : FileTree) (path : String) (d : f.Data) : Prop :=
  ∃ bytes, t.read path = .ok bytes ∧ f.load bytes = .ok d

/-- A file that can be read is not loaded. -/
def Unloaded (f : Format) (t : FileTree) (path : String) (e : LoadError) : Prop :=
  ∃ bytes, t.read path = .ok bytes ∧ f.load bytes = .error e

/-- What can come of a settings file at a path. -/
inductive Comes (f : Format) (t : FileTree) (path : String) : Except SettingsError (Settings × Record) → Prop where
  | badPath (h : '\x00' ∈ path.toList) : Comes f t path (.error .badPath)
  | unreadable {reason : SystemError} (h : t.read path = .error (.refused reason path)) :
      Comes f t path (.error (.unreadable path reason))
  | notUnicode (h : Unloaded f t path .notUnicode) : Comes f t path (.error .notUnicode)
  | malformed (h : Unloaded f t path .malformed) : Comes f t path (.error (.malformed path))
  | stray {kind : ErrorKind} {message : String} (h : Unloaded f t path (.stray kind message)) :
      Comes f t path (.error (.stray kind message))
  | noMapping {d : f.Data} (h : Holds f t path d) (hd : f.isMapping (f.mapping d) = false) :
      Comes f t path (.error (.noMapping path))
  | misfits {d : f.Data} {errors : List FieldError} (h : Holds f t path d) (hd : f.isMapping (f.mapping d) = true)
      (hs : f.validate (f.mapping d) = .error errors) : Comes f t path (.error (.misfits path errors))
  | settings {d : f.Data} {s : Settings} (h : Holds f t path d) (hd : f.isMapping (f.mapping d) = true)
      (hs : f.validate (f.mapping d) = .ok s) : Comes f t path (.ok (s, s.loaded path))

theorem Comes.of_read {r : Except SettingsError (Settings × Record)} (h : read f t file = r) :
    Comes f t (Path.normal file) r := by
  subst h
  unfold read ofFile
  split
  · next h => exact .badPath (FileTree.read_nullCharacter_iff.1 h)
  · next reason path h =>
    obtain rfl := FileTree.path_of_refused h
    exact .unreadable h
  · next bytes h =>
    unfold ofBytes
    split
    · next e hload =>
      cases e with
      | notUnicode => exact .notUnicode ⟨bytes, h, hload⟩
      | malformed => exact .malformed ⟨bytes, h, hload⟩
      | stray kind message => exact .stray ⟨bytes, h, hload⟩
    · next d hload =>
      have hholds : Holds f t (Path.normal file) d := ⟨bytes, h, hload⟩
      unfold ofData
      split
      · next hd =>
        cases hs : f.validate (f.mapping d) with
        | ok s => exact .settings hholds hd hs
        | error errors => exact .misfits hholds hd hs
      · next hd => exact .noMapping hholds (by simpa using hd)

theorem read_of_null (h : '\x00' ∈ (Path.normal file).toList) : read f t file = .error .badPath := by
  rw [read, FileTree.read_nullCharacter_iff.2 h, ofFile]

theorem read_of_refused {reason : SystemError}
    (h : t.read (Path.normal file) = .error (.refused reason (Path.normal file))) :
    read f t file = .error (.unreadable (Path.normal file) reason) := by
  rw [read, h, ofFile]

theorem read_of_unloaded {e : LoadError} (h : Unloaded f t (Path.normal file) e) :
    read f t file = .error (e.settingsError (Path.normal file)) := by
  obtain ⟨bytes, hbytes, hload⟩ := h
  rw [read, hbytes, ofFile, ofBytes, hload, Except.map]

theorem read_of_holds (h : Holds f t (Path.normal file) d) :
    read f t file = (ofData f (Path.normal file) d).map fun s => (s, s.loaded (Path.normal file)) := by
  obtain ⟨bytes, hbytes, hload⟩ := h
  rw [read, hbytes, ofFile, ofBytes, hload]

theorem read_of_mapping (h : Holds f t (Path.normal file) d) (hd : f.isMapping (f.mapping d) = true) :
    read f t file = ((f.validate (f.mapping d)).mapError (.misfits (Path.normal file))).map
      fun s => (s, s.loaded (Path.normal file)) := by
  rw [read_of_holds h, ofData, if_pos hd]

theorem Comes.read_eq {r : Except SettingsError (Settings × Record)} (h : Comes f t (Path.normal file) r) :
    read f t file = r := by
  cases h with
  | badPath h => exact read_of_null h
  | unreadable h => exact read_of_refused h
  | notUnicode h | malformed h | stray h => exact read_of_unloaded h
  | noMapping h hd =>
    rw [read_of_holds h, ofData, hd]
    rfl
  | misfits h hd hs | settings h hd hs =>
    rw [read_of_mapping h hd, hs]
    rfl

/-- A file comes to exactly one end. -/
theorem read_eq_iff {r : Except SettingsError (Settings × Record)} :
    read f t file = r ↔ Comes f t (Path.normal file) r :=
  ⟨.of_read, Comes.read_eq⟩

/-! ## All files -/

/-- How reading a settings file ends. -/
structure Loads (f : Format) (t : FileTree) (file : String) : Prop where
  badPath_iff : read f t file = .error .badPath ↔ '\x00' ∈ (Path.normal file).toList
  unreadable_iff : ∀ path reason, read f t file = .error (.unreadable path reason) ↔
    path = Path.normal file ∧ t.read path = .error (.refused reason path)
  notUnicode_iff : read f t file = .error .notUnicode ↔ Unloaded f t (Path.normal file) .notUnicode
  malformed_iff : ∀ path, read f t file = .error (.malformed path) ↔
    path = Path.normal file ∧ Unloaded f t path .malformed
  stray_iff : ∀ kind message, read f t file = .error (.stray kind message) ↔
    Unloaded f t (Path.normal file) (.stray kind message)
  noMapping_iff : ∀ path, read f t file = .error (.noMapping path) ↔ path = Path.normal file ∧
    ∃ d, Holds f t path d ∧ f.isMapping (f.mapping d) = false
  misfits_iff : ∀ path errors, read f t file = .error (.misfits path errors) ↔ path = Path.normal file ∧
    ∃ d, Holds f t path d ∧ f.isMapping (f.mapping d) = true ∧ f.validate (f.mapping d) = .error errors
  settings_iff : ∀ s r, read f t file = .ok (s, r) ↔ r = s.loaded (Path.normal file) ∧
    ∃ d, Holds f t (Path.normal file) d ∧ f.isMapping (f.mapping d) = true ∧ f.validate (f.mapping d) = .ok s
  /-- A file with nothing in it gives the usual settings. -/
  nothing : ∀ d, Holds f t (Path.normal file) d → f.isNothing d = true →
    read f t file = .ok ({}, loaded (Path.normal file) {})
  /-- Bytes that are no text give no settings. A strict format says so, and its error is passed on. -/
  noText : ∀ bytes, t.read (Path.normal file) = .ok bytes → (∀ text, bytes ≠ Text.encode text) →
    (∃ e, read f t file = .error e) ∧ (f.Strict → read f t file = .error .notUnicode)
  /-- Only bytes that are no text are reported as such. -/
  unreadText : read f t file = .error .notUnicode →
    ∃ bytes, t.read (Path.normal file) = .ok bytes ∧ ∀ text, bytes ≠ Text.encode text
  /-- What is passed on is one of three errors; in all other cases there are settings, or none and the error says so. -/
  escapes_iff : (∃ e, read f t file = .error e ∧ e.isConfigurationError = false) ↔
    '\x00' ∈ (Path.normal file).toList ∨ Unloaded f t (Path.normal file) .notUnicode ∨
      ∃ kind message, Unloaded f t (Path.normal file) (.stray kind message)

theorem escapes_of_comes {e : SettingsError} (h : Comes f t path (.error e)) (he : e.isConfigurationError = false) :
    '\x00' ∈ path.toList ∨ Unloaded f t path .notUnicode ∨ ∃ kind message, Unloaded f t path (.stray kind message) := by
  cases h with
  | badPath h => exact .inl h
  | notUnicode h => exact .inr (.inl h)
  | stray h => exact .inr (.inr ⟨_, _, h⟩)
  | unreadable | malformed | noMapping | misfits => cases he

/-- **Loading settings.** Whatever stands at a path, its settings are read, or an error says that there are none; but
a path that no system has, bytes that are no text and stray errors of the format are passed on as other errors. -/
theorem settings_loaded (f : Format) (t : FileTree) (file : String) : Loads f t file where
  badPath_iff := by
    rw [read_eq_iff]
    constructor
    · intro hcomes
      cases hcomes with
      | badPath h => exact h
    · exact .badPath
  unreadable_iff path reason := by
    rw [read_eq_iff]
    constructor
    · intro hcomes
      cases hcomes with
      | unreadable h => exact ⟨rfl, h⟩
    · rintro ⟨rfl, h⟩
      exact .unreadable h
  notUnicode_iff := by
    rw [read_eq_iff]
    constructor
    · intro hcomes
      cases hcomes with
      | notUnicode h => exact h
    · exact .notUnicode
  malformed_iff path := by
    rw [read_eq_iff]
    constructor
    · intro hcomes
      cases hcomes with
      | malformed h => exact ⟨rfl, h⟩
    · rintro ⟨rfl, h⟩
      exact .malformed h
  stray_iff kind message := by
    rw [read_eq_iff]
    constructor
    · intro hcomes
      cases hcomes with
      | stray h => exact h
    · exact .stray
  noMapping_iff path := by
    rw [read_eq_iff]
    constructor
    · intro hcomes
      cases hcomes with
      | noMapping h hd => exact ⟨rfl, _, h, hd⟩
    · rintro ⟨rfl, d, h, hd⟩
      exact .noMapping h hd
  misfits_iff path errors := by
    rw [read_eq_iff]
    constructor
    · intro hcomes
      cases hcomes with
      | misfits h hd hs => exact ⟨rfl, _, h, hd, hs⟩
    · rintro ⟨rfl, d, h, hd, hs⟩
      exact .misfits h hd hs
  settings_iff s r := by
    rw [read_eq_iff]
    constructor
    · intro hcomes
      cases hcomes with
      | settings h hd hs => exact ⟨rfl, _, h, hd, hs⟩
    · rintro ⟨rfl, d, h, hd, hs⟩
      exact .settings h hd hs
  nothing d h hd := by
    rw [read_of_mapping h (by rw [Format.mapping_of_nothing hd, f.isMapping_empty]), Format.mapping_of_nothing hd,
      f.validate_empty]
    rfl
  noText bytes h hno := by
    refine ⟨?_, fun hstrict => read_of_unloaded ⟨bytes, h, hstrict bytes hno⟩⟩
    cases hload : f.load bytes with
    | error e => exact ⟨_, read_of_unloaded ⟨bytes, h, hload⟩⟩
    | ok d =>
      obtain ⟨text, htext⟩ := Format.encode_of_load hload
      exact absurd htext (hno text)
  unreadText hread := by
    cases Comes.of_read hread with
    | notUnicode h =>
      obtain ⟨bytes, hbytes, hload⟩ := h
      exact ⟨bytes, hbytes, Format.ne_encode_of_load hload⟩
  escapes_iff := by
    constructor
    · rintro ⟨e, h, he⟩
      exact escapes_of_comes (.of_read h) he
    · rintro (h | h | ⟨kind, message, h⟩)
      · exact ⟨_, read_of_null h, rfl⟩
      · exact ⟨_, read_of_unloaded h, rfl⟩
      · exact ⟨_, read_of_unloaded h, rfl⟩

/-! ## The YAML format -/

theorem Format.yaml_strict : Format.yaml.Strict := by
  intro bytes hno
  show Yaml.Values.ofBytes bytes = _
  rw [Yaml.Values.ofBytes, Option.eq_none_iff_forall_ne_some.2 fun text htext =>
    hno text (Text.decodeStrict?_eq_some_iff.1 htext)]
  rfl

/-- A stray error of the format comes from an escape, a version, or a scalar without the value that it announces. -/
theorem Format.yaml_stray {kind : ErrorKind} {message : String}
    (h : Format.yaml.load bytes = .error (.stray kind message)) :
    ∃ text fault, bytes = Text.encode text ∧ Yaml.Origin (Text.unifyNewlines text) fault ∧ fault.kind = kind ∧
      fault.message = message := by
  have hload : Yaml.Values.ofBytes bytes = .error (.stray kind message) := h
  unfold Yaml.Values.ofBytes at hload
  split at hload
  · cases hload
  · next text htext =>
    cases hread : Yaml.Values.read text with
    | ok vs =>
      rw [hread] at hload
      cases hload
    | error fault =>
      rw [hread] at hload
      have herror : fault.loadError = .stray kind message := Except.error.inj hload
      refine ⟨text, fault, Text.decodeStrict?_eq_some_iff.1 htext, ?_⟩
      obtain rfl | horigin := (Yaml.Values.read_fails text).of_error hread
      · cases herror
      · cases fault with
        | malformed => cases herror
        | _ =>
          obtain ⟨rfl, rfl⟩ := LoadError.stray.inj herror
          exact ⟨horigin, rfl, rfl⟩

/-- A file with a byte that begins no character, and one with a date that no calendar has. -/
def strayFiles : FileTree :=
  .ofFiles [("s.yaml", .file [0xff] false), ("d.yaml", .file (Text.encode "dst: 2001-02-30".toList) false)]

theorem stray_escapes : read .yaml strayFiles "s.yaml" = .error .notUnicode ∧
    read .yaml strayFiles "d.yaml" = .error (.stray .value (Yaml.MomentError.message .day)) ∧
      read .yaml strayFiles "\x00" = .error .badPath ∧
        ¬∀ file e, read .yaml strayFiles file = .error e → e.isConfigurationError = true := by
  have hbytes : read .yaml strayFiles "s.yaml" = .error .notUnicode := by decide +kernel
  refine ⟨hbytes, by decide +kernel, by decide +kernel, fun hall => ?_⟩
  cases hall _ _ hbytes

end Settings

end Thumbnailer
