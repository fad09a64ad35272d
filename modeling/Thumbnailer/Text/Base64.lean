/-!
# Base 64

Four letters stand for three bytes. Characters that are no letters are skipped, and what follows the padding does
not count.
-/

namespace Thumbnailer.Text

def sixBits? (c : Char) : Option Nat :=
  if c.isUpper then some (c.toNat - 65)
  else if c.isLower then some (c.toNat - 71)
  else if c.isDigit then some (c.toNat + 4)
  else if c == '+' then some 62
  else if c == '/' then some 63
  else none

/-- The byte that is complete with a letter, given the place of the letter among four and the bits before it. -/
def completeByte (place bits six : Nat) : List UInt8 :=
  match place with
  | 1 => [(bits * 4 + six / 16).toUInt8]
  | 2 => [(bits % 16 * 16 + six / 4).toUInt8]
  | 3 => [(bits % 4 * 64 + six).toUInt8]
  | _ => []

/-- Reads letters, where `place` of a group of four have been read, `bits` is the last of them and `pads` signs of
padding stand right before. The last group must be complete or padded. -/
def decodeBase64From (place bits pads : Nat) : List Char → Option (List UInt8)
  | [] => if place = 0 then some [] else none
  | c :: rest =>
    if c == '=' then
      if place ≥ 2 then
        if place + (pads + 1) ≥ 4 then some [] else decodeBase64From place bits (pads + 1) rest
      else decodeBase64From place bits pads rest
    else
      match sixBits? c with
      | none => decodeBase64From place bits pads rest
      | some six =>
        (decodeBase64From ((place + 1) % 4) six 0 rest).map (completeByte place bits six ++ ·)

def decodeBase64? (s : List Char) : Option (List UInt8) := decodeBase64From 0 0 0 s

end Thumbnailer.Text
