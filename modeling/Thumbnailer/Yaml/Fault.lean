import Thumbnailer.Text.Integer
import Thumbnailer.Yaml.Moment

/-!
# Faults of YAML texts
-/

namespace Thumbnailer.Yaml

/-- Why a text gives no values. Beside faults of form there are scalars that announce a value and do not
have it. -/
inductive Fault where
  /-- The text breaks a rule of form. -/
  | malformed
  /-- An escape gives the code of no character. -/
  | badCode (code : Nat)
  | badInteger (reason : Text.IntegerError)
  /-- A number without any digit. -/
  | emptyNumber
  | badFloat (text : String)
  /-- A number in base sixty has too many places. -/
  | tooManyPlaces
  | badBoolean (text : String)
  /-- The text has not the form of a point in time. -/
  | badTimestamp
  /-- A part of a point in time is out of its range. -/
  | badMoment (reason : MomentError)
deriving DecidableEq, Repr

/-- What a machine integer can hold at most. -/
def machineLimit : Nat := Nat.pow 2 31

def Fault.message : Fault → String
  | .malformed => "malformed"
  | .badCode code =>
    if code < machineLimit then "chr() arg not in range(0x110000)"
    else "Python int too large to convert to C int"
  | .badInteger reason => reason.message
  | .emptyNumber => "string index out of range"
  | .tooManyPlaces => "int too large to convert to float"
  | .badFloat text => s!"could not convert string to float: {Text.quoted text}"
  | .badBoolean text => Text.quoted text
  | .badTimestamp => "'NoneType' object has no attribute 'groupdict'"
  | .badMoment reason => reason.message

end Thumbnailer.Yaml
