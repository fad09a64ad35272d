import Thumbnailer.Number.Shortest

/-!
# Fixed places

A number with a fixed count of decimal places: its exact value, rounded half to even.
-/

namespace Thumbnailer

/-- `mant · 2 ^ exp` in units of `10 ^ -places`, rounded half to even. -/
def Double.inPlaces (places mant : Nat) (exp : Int) : Nat :=
  if 0 ≤ exp then mant * Nat.pow 10 places * Nat.pow 2 exp.toNat
  else Double.roundHalfEven (mant * Nat.pow 10 places) (Nat.pow 2 (-exp).toNat)

/-- A count of units of `10 ^ -places` as a decimal with that many places, at least one. -/
def fixedPoint (places units : Nat) : List Char :=
  let digits := padLeft (places + 1) (Nat.toDigits 10 units)
  digits.take (digits.length - places) ++ '.' :: digits.drop (digits.length - places)

/-- The text of a number with a fixed count of places, at least one. -/
def Double.fixed (places : Nat) : Double → String
  | .nan => "nan"
  | .infinite s => if s then "-inf" else "inf"
  | .finite s m e =>
    let body := fixedPoint places (Double.inPlaces places m e)
    String.ofList (if s then '-' :: body else body)

end Thumbnailer
