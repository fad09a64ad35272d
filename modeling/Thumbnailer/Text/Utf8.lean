/-!
# UTF-8

Reading bytes as text. A byte sequence that is no character is read as its longest beginning that could
have become one, at least one byte; a lossy reading puts the replacement character there and a strict
reading refuses.
-/

namespace Thumbnailer.Text

def isContinuation (b : UInt8) : Bool := 0x80 ≤ b && b ≤ 0xbf

/-- The second byte that may follow the first byte `b` of a character of three or four bytes. -/
def isSecond (b c : UInt8) : Bool :=
  if b == 0xe0 then 0xa0 ≤ c && c ≤ 0xbf
  else if b == 0xed then 0x80 ≤ c && c ≤ 0x9f
  else if b == 0xf0 then 0x90 ≤ c && c ≤ 0xbf
  else if b == 0xf4 then 0x80 ≤ c && c ≤ 0x8f
  else isContinuation c

def low (b : UInt8) : Nat := b.toNat % 64

/-- Reads the character at the start: the character, or `none` if there is none, and how many bytes it took. -/
def readChar (b : UInt8) (rest : List UInt8) : Option Char × Nat :=
  if b < 0x80 then (some (Char.ofNat b.toNat), 1)
  else if b < 0xc2 then (none, 1)
  else if b < 0xe0 then
    match rest with
    | c :: _ =>
      if isContinuation c then (some (Char.ofNat (b.toNat % 32 * 64 + low c)), 2) else (none, 1)
    | [] => (none, 1)
  else if b < 0xf0 then
    match rest with
    | c :: d :: _ =>
      if !isSecond b c then (none, 1)
      else if !isContinuation d then (none, 2)
      else (some (Char.ofNat (b.toNat % 16 * 4096 + low c * 64 + low d)), 3)
    | [c] => (none, if isSecond b c then 2 else 1)
    | [] => (none, 1)
  else if b < 0xf5 then
    match rest with
    | c :: d :: e :: _ =>
      if !isSecond b c then (none, 1)
      else if !isContinuation d then (none, 2)
      else if !isContinuation e then (none, 3)
      else (some (Char.ofNat (b.toNat % 8 * 262144 + low c * 4096 + low d * 64 + low e)), 4)
    | [c, d] => (none, if !isSecond b c then 1 else if isContinuation d then 3 else 2)
    | [c] => (none, if isSecond b c then 2 else 1)
    | [] => (none, 1)
  else (none, 1)

/-- The characters of a byte sequence; `none` stands for bytes that are no character. -/
def decodeUnits : List UInt8 → List (Option Char)
  | [] => []
  | b :: rest => (readChar b rest).1 :: decodeUnits (rest.drop ((readChar b rest).2 - 1))
termination_by bytes => bytes.length
decreasing_by simp only [List.length_cons, List.length_drop]; omega

/-- Reads bytes as text, with U+FFFD where they are none. -/
def decodeLossy (bytes : List UInt8) : List Char :=
  (decodeUnits bytes).map fun u => u.getD '\ufffd'

/-- Reads bytes as text, or `none` if some are no text. -/
def decodeStrict? (bytes : List UInt8) : Option (List Char) :=
  (decodeUnits bytes).mapM id

end Thumbnailer.Text
