import Thumbnailer.Encoder.Search
import Thumbnailer.Session
import Thumbnailer.Version

/-!
# Checking the encoder

The encoder is asked for its version, which must not be too old.
-/

namespace Thumbnailer

inductive EncoderError where
  | notFound
  /-- A place where the encoder may be cannot be looked at. -/
  | unsearchable (reason : PathError)
  /-- Asking for the version failed. -/
  | notAnswering (error : String)
  | noVersion
  | badVersion (text : String) (reason : VersionError)
  | tooOld (minimum current : Version)
  /-- The version is too old, and it or the minimum cannot be written. -/
  | unwritable (reason : Text.IntegerError)
  /-- The program could not be asked at all. -/
  | unasked (reason : Escape)
deriving DecidableEq, Repr

def EncoderError.message : EncoderError → String
  | .notFound => "cannot find ffmpeg binary in PATH"
  | .unsearchable reason => reason.message
  | .notAnswering error => s!"cannot check ffmpeg version: {error}"
  | .noVersion => "cannot find ffmpeg version"
  | .badVersion text reason => s!"wrong ffmpeg version reported: {text}: {reason.message}"
  | .tooOld minimum current =>
    s!"ffmpeg is too old: required {minimum.text}, current {current.text}"
  | .unwritable reason => reason.message
  | .unasked reason => reason.message

/-- The error is about the version of the encoder. -/
def EncoderError.isVersionError : EncoderError → Bool
  | .notFound => false
  | .unsearchable _ => false
  | .unwritable _ => false
  | .unasked _ => false
  | _ => true

/-- The oldest version that can be used. -/
def minimumVersion : Version := [5, 0, 0]

def versionSession (program : String) : Session :=
  { program, arguments := ["-version"], keepsStdout := true }

def isVersionChar (c : Char) : Bool := c.isDigit || c == '.'

def versionIn (output : String) : Except EncoderError Version :=
  match Text.findAfter? "ffmpeg version " isVersionChar output.toList with
  | none => .error .noVersion
  | some found =>
    match Version.parse (String.ofList found) with
    | .ok v => .ok v
    | .error e => .error (.badVersion (String.ofList found) e)

def reportedVersion (o : Outcome) : Except EncoderError Version :=
  if o.success then versionIn o.stdout else .error (.notAnswering (o.error.getD ""))

def askVersion (program : String) (child : Child) : Except EncoderError Version × List Event :=
  let asked := (versionSession program).run child .never
  let version :=
    match asked.result with
    | .ok o => reportedVersion o
    | .error reason => .error (.unasked reason)
  (version, asked.events)

/-- The error that a version is too old, unless a number in its message cannot be written. -/
def EncoderError.ofOld (minimum version : Version) : EncoderError :=
  match minimum.write, version.write with
  | .error reason, _ => .unwritable reason
  | .ok _, .error reason => .unwritable reason
  | .ok _, .ok _ => .tooOld minimum version

/-- A version that is not older than the minimum. -/
def accept (minimum version : Version) : Except EncoderError Version :=
  if version.older minimum then .error (.ofOld minimum version) else .ok version

/-- Asks a program for its version, which must not be older than the minimum. -/
def verifyVersion (program : String) (minimum : Version) (child : Child) :
    Except EncoderError Version × List Event :=
  let (v, events) := askVersion program child
  (v.bind (accept minimum), events)

def findEncoder (m : Machine) : Except EncoderError String :=
  match m.resolve? encoderNames with
  | .ok (some path) => .ok path
  | .ok none => .error .notFound
  | .error reason => .error (.unsearchable reason)

/-- The path of an encoder that can be used: the given one, or else the one that is found. -/
def verifiedPath (m : Machine) (given : Option String) (child : Child) :
    Except EncoderError String × List Event :=
  match if (given.getD "").isEmpty then findEncoder m else .ok (given.getD "") with
  | .error e => (.error e, [])
  | .ok path =>
    let (v, events) := verifyVersion path minimumVersion child
    (v.map fun _ => path, events)

end Thumbnailer
