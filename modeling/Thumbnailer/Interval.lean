import Thumbnailer.Number.Shortest

/-!
# Intervals

An interval is a whole number of microseconds, of either sign, and at most 999999999 days long.
-/

namespace Thumbnailer

inductive IntervalError where
  | notANumber
  | infinite
  /-- The interval has this many days, more than there may be. -/
  | tooManyDays (days : Int)
  /-- The days do not even fit in a machine integer. -/
  | outOfRange
deriving DecidableEq, Repr

def IntervalError.message : IntervalError → String
  | .notANumber => "cannot convert float NaN to integer"
  | .infinite => "cannot convert float infinity to integer"
  | .tooManyDays days => s!"days={days}; must have magnitude <= 999999999"
  | .outOfRange => "Python int too large to convert to C int"

namespace Interval

def perSecond : Nat := 1000000

def perDay : Nat := 86400 * perSecond

/-- The magnitude of days that no longer fits in a machine integer. -/
def dayBound : Int := 2147483648

def checked (microseconds : Int) : Except IntervalError Int :=
  let days := microseconds.fdiv perDay
  if days < -dayBound || dayBound ≤ days then .error .outOfRange
  else if days < -999999999 || 999999999 < days then .error (.tooManyDays days)
  else .ok microseconds

/-- `±(whole + part)`, where `part` is a binary64 number of the same sign, rounded half to even. -/
def joined (negative : Bool) (whole : Nat) (part : Double) : Int :=
  let n :=
    match part with
    | .finite _ m e =>
      if 0 ≤ e then whole + m * Nat.pow 2 e.toNat
      else Double.roundHalfEven (whole * Nat.pow 2 (-e).toNat + m) (Nat.pow 2 (-e).toNat)
    | _ => whole
  if negative then -(n : Int) else n

/-- The interval of a number of seconds. Whole seconds count exactly; the part of a second is made
microseconds in binary64, and the sum is rounded half to even. -/
def ofSeconds : Double → Except IntervalError Int
  | .nan => .error .notANumber
  | .infinite _ => .error .infinite
  | .finite s m e =>
    let part := Double.mul (Double.ofScaled s (Double.fractionUnits m e) e) (Double.ofInt perSecond)
    checked (joined s (Double.wholePart m e * perSecond) part)

/-- The seconds of an interval as the nearest binary64 number. -/
def seconds (microseconds : Int) : Double :=
  Double.ofRatio (microseconds < 0) microseconds.natAbs perSecond

def dropPointZero (s : List Char) : List Char :=
  match s.reverse with
  | '0' :: '.' :: rest => rest.reverse
  | _ => s

/-- The seconds of an interval, written as short as possible. -/
def text (microseconds : Int) : String :=
  String.ofList (dropPointZero (seconds microseconds).text.toList)

end Interval

end Thumbnailer
