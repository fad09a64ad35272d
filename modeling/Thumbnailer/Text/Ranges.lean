/-!
# Tables of code points

A property of characters is a list of ranges of code points, ends included.
-/

namespace Thumbnailer.Text

def inRanges (ranges : List (Nat × Nat)) (code : Nat) : Bool :=
  ranges.any fun r => r.1 ≤ code && code ≤ r.2

end Thumbnailer.Text
