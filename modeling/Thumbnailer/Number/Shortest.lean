import Thumbnailer.Number.Double

/-!
# The shortest decimal of a binary64 number

Of all decimals that are read back as the number the one with the fewest digits is written, of those the
nearest, and of two equally near the one with the even last digit.
-/

namespace Thumbnailer

structure Decimal where
  digits : Nat
  exp : Int
deriving DecidableEq, Repr

namespace Double

/-- Factors `(a, b)` such that `c · 10 ^ j` is at most `v · 2 ^ q` exactly if `c * a ≤ v * b`. -/
def gridFactors (j q : Int) : Nat × Nat :=
  (Nat.pow 10 j.toNat * Nat.pow 2 (-q).toNat, Nat.pow 10 (-j).toNat * Nat.pow 2 q.toNat)

/-- The decimal with last place `10 ^ j` that is read back as `mant · 2 ^ exp`, the nearest of two. -/
def onGrid? (mant : Nat) (exp : Int) (j : Int) : Option Nat :=
  let (a, b) := gridFactors j (exp - 2)
  let least := (4 * mant - if mant = Nat.pow 2 52 && exp > -1074 then 1 else 2) * b
  let most := (4 * mant + 2) * b
  let inside (c : Nat) : Bool :=
    if mant % 2 = 0 then least ≤ c * a && c * a ≤ most else least < c * a && c * a < most
  let below := 4 * mant * b / a
  let above := below + 1
  if inside below then
    if inside above then
      let twice := 8 * mant * b
      let middle := (below + above) * a
      if twice < middle then some below
      else if middle < twice then some above
      else if below % 2 = 0 then some below else some above
    else some below
  else if inside above then some above
  else none

/-- A power of ten above `mant · 2 ^ exp`, for a `mant` of at most 53 bits. -/
def decimalTop (exp : Int) : Int := (53 + exp) * 30103 / 100000 + 2

/-- The shortest decimal that is read back as `mant · 2 ^ exp`, for a `mant` above zero. -/
def shortest (mant : Nat) (exp : Int) : Decimal :=
  let found := (List.range 25).findSome? fun (k : Nat) =>
    let j := decimalTop exp - k
    (onGrid? mant exp j).map fun c => Decimal.mk c j
  found.getD ⟨mant, 0⟩

end Double

/-! ## Layout -/

/-- How a decimal is laid out: the point is written for numbers whose point stands between `least` and `most`
places behind the first digit's place, and an exponent of at least `exponentDigits` digits for all others. -/
structure Layout where
  least : Int
  most : Int
  exponentDigits : Nat

/-- Numbers from `10 ^ -4` up to `10 ^ 16` are written with a point, all others with an exponent of two digits
or more. -/
def Layout.plain : Layout := ⟨-3, 16, 2⟩

def padLeft (width : Nat) (s : List Char) : List Char :=
  List.replicate (width - s.length) '0' ++ s

/-- Digits with a point after the first `point` of them; at least one digit stands on each side. -/
def placePoint (digits : List Char) (point : Int) : List Char :=
  if point ≤ 0 then '0' :: '.' :: List.replicate (-point).toNat '0' ++ digits
  else
    let n := point.toNat
    if digits.length ≤ n then digits ++ List.replicate (n - digits.length) '0' ++ ['.', '0']
    else digits.take n ++ '.' :: digits.drop n

/-- One digit, the other digits behind a point if there are any, and the exponent with its sign. -/
def placeExponent (layout : Layout) (digits : List Char) (point : Int) : List Char :=
  let head := match digits with
    | [] => []
    | [d] => [d]
    | d :: ds => d :: '.' :: ds
  let e := point - 1
  head ++ 'e' :: (if e < 0 then '-' else '+') :: padLeft layout.exponentDigits (Nat.toDigits 10 e.natAbs)

def Decimal.layOut (layout : Layout) (d : Decimal) : List Char :=
  let digits := Nat.toDigits 10 d.digits
  let point := digits.length + d.exp
  if layout.least ≤ point && point ≤ layout.most then placePoint digits point
  else placeExponent layout digits point

/-- The text of a number: its shortest decimal, with a point or an exponent in it. -/
def Double.text : Double → String
  | .nan => "nan"
  | .infinite s => if s then "-inf" else "inf"
  | .finite s m e =>
    let body := if m = 0 then ['0', '.', '0'] else (Double.shortest m e).layOut .plain
    String.ofList (if s then '-' :: body else body)

end Thumbnailer
