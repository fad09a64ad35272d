/-!
# Binary64 numbers

A number of 53 significant bits, or an infinity, or none at all. Every operation gives the exact result
rounded to the nearest such number, a tie to the even one.
-/

namespace Thumbnailer

/-- A binary64 number: none, an infinity, or `± mant · 2 ^ exp`. -/
inductive Double where
  | nan
  | infinite (negative : Bool)
  | finite (negative : Bool) (mant : Nat) (exp : Int)
deriving DecidableEq, Repr

namespace Double

/-! ## Rounding -/

def roundHalfEven (num den : Nat) : Nat :=
  let q := num / den
  let r := num % den
  if 2 * r < den then q
  else if den < 2 * r then q + 1
  else if q % 2 = 0 then q else q + 1

/-- The numerator and denominator of `num / den / 2 ^ e`. -/
def scaled (num den : Nat) (e : Int) : Nat × Nat :=
  if 0 ≤ e then (num, den * Nat.pow 2 e.toNat) else (num * Nat.pow 2 (-e).toNat, den)

/-- The exponent of the last place of a number near `num / den`: 53 bits are kept, and no place is below
`2 ^ -1074`. -/
def lastPlace (num den : Nat) : Int :=
  let e : Int := (num.log2 : Int) - den.log2 - 52
  let (n, d) := scaled num den e
  max (if n < Nat.pow 2 52 * d then e - 1 else e) (-1074)

def zero (negative : Bool) : Double := .finite negative 0 (-1074)

/-- `± m · 2 ^ e`, where `m` may have grown to `2 ^ 53` by rounding. -/
def make (negative : Bool) (m : Nat) (e : Int) : Double :=
  let (m, e) := if m = Nat.pow 2 53 then (Nat.pow 2 52, e + 1) else (m, e)
  if e > 971 then .infinite negative else .finite negative m e

def ofRatio (negative : Bool) (num den : Nat) : Double :=
  if num = 0 then zero negative
  else
    let e := lastPlace num den
    let (n, d) := scaled num den e
    make negative (roundHalfEven n d) e

def ofScaled (negative : Bool) (m : Nat) (e : Int) : Double :=
  if 0 ≤ e then ofRatio negative (m * Nat.pow 2 e.toNat) 1 else ofRatio negative m (Nat.pow 2 (-e).toNat)

def ofInt (n : Int) : Double := ofRatio (n < 0) n.natAbs 1

/-- How many decimal digits a number has; zero has none. -/
def digitCount (n : Nat) : Nat := if n = 0 then 0 else (Nat.toDigits 10 n).length

/-- The number nearest `± digits · 10 ^ exp`. Far beyond the range the answer is known without computing. -/
def ofDecimal (negative : Bool) (digits : Nat) (exp : Int) : Double :=
  let size := (digitCount digits : Int) + exp
  if digits = 0 || size < -330 then zero negative
  else if size > 320 then .infinite negative
  else if 0 ≤ exp then ofRatio negative (digits * Nat.pow 10 exp.toNat) 1
  else ofRatio negative digits (Nat.pow 10 (-exp).toNat)

/-! ## Arithmetic -/

def negate : Double → Double
  | .nan => .nan
  | .infinite s => .infinite (!s)
  | .finite s m e => .finite (!s) m e

/-- The signed integer `x / 2 ^ e`, for `e` at most the exponent of `x`. -/
def units (negative : Bool) (m : Nat) (exp e : Int) : Int :=
  let n : Int := (m * Nat.pow 2 (exp - e).toNat : Nat)
  if negative then -n else n

def add : Double → Double → Double
  | .nan, _ => .nan
  | _, .nan => .nan
  | .infinite s, .infinite t => if s = t then .infinite s else .nan
  | .infinite s, _ => .infinite s
  | _, .infinite t => .infinite t
  | .finite s m e, .finite t n f =>
    let low := min e f
    let sum := units s m e low + units t n f low
    if sum = 0 then zero (s && t) else ofScaled (sum < 0) sum.natAbs low

def sub (x y : Double) : Double := add x (negate y)

def mul : Double → Double → Double
  | .nan, _ => .nan
  | _, .nan => .nan
  | .infinite s, .infinite t => .infinite (s != t)
  | .infinite s, .finite t n _ => if n = 0 then .nan else .infinite (s != t)
  | .finite s m _, .infinite t => if m = 0 then .nan else .infinite (s != t)
  | .finite s m e, .finite t n f => ofScaled (s != t) (m * n) (e + f)

/-! ## Parts -/

def wholePart (mant : Nat) (exp : Int) : Nat :=
  if 0 ≤ exp then mant * Nat.pow 2 exp.toNat else mant / Nat.pow 2 (-exp).toNat

def fractionUnits (mant : Nat) (exp : Int) : Nat :=
  if 0 ≤ exp then 0 else mant % Nat.pow 2 (-exp).toNat

def toInt? : Double → Option Int
  | .finite s m e =>
    if fractionUnits m e = 0 then
      some (if s then -(wholePart m e : Int) else wholePart m e)
    else none
  | _ => none

/-- The numbers compare equal: the two zeros do, and no number does with `nan`. -/
def same : Double → Double → Bool
  | .nan, _ => false
  | _, .nan => false
  | .infinite s, .infinite t => s == t
  | .finite s m e, .finite t n f => (m == 0 && n == 0) || (s == t && m == n && e == f)
  | _, _ => false

end Double

end Thumbnailer
