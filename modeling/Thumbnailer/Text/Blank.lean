/-!
# Blanks

What stands at the ends of a text can be stripped off. The characters that trimming strips off are the 29 blanks of
Unicode, the four information separators among them.
-/

namespace Thumbnailer.Text

/-- Drops the characters of a class that stand at the end. -/
def stripEnd (drops : Char → Bool) (s : List Char) : List Char := (s.reverse.dropWhile drops).reverse

/-- Drops the characters of a class that stand at either end. -/
def strip (drops : Char → Bool) (s : List Char) : List Char := stripEnd drops (s.dropWhile drops)

/-- White space of every script, line and paragraph separators included. -/
def isBlank (c : Char) : Bool :=
  let n := c.toNat
  (9 ≤ n && n ≤ 13) || (28 ≤ n && n ≤ 32) || n == 0x85 || n == 0xa0 || n == 0x1680 ||
    (0x2000 ≤ n && n ≤ 0x200a) || n == 0x2028 || n == 0x2029 || n == 0x202f || n == 0x205f || n == 0x3000

def trimChars (s : List Char) : List Char := strip isBlank s

/-- Drops the blanks at both ends. -/
def trim (s : String) : String := String.ofList (trimChars s.toList)

/-- The blanks around a number: the information separators are not among them. -/
def isNumberBlank (c : Char) : Bool :=
  isBlank c && !(28 ≤ c.toNat && c.toNat ≤ 31)

end Thumbnailer.Text
