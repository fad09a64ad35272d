import Mathlib.Logic.Relation
import Thumbnailer.Encoder.Check
import Thumbnailer.Proofs.Session.Observers
import Thumbnailer.Proofs.Text.Searching
import Thumbnailer.Proofs.Version.Order
import Thumbnailer.Proofs.Version.RoundTrip

/-!
# Checking the version of the encoder

What comes of asking a program for its version, whatever the program does: the version that it reports, or an error
about the version. Whether a version is accepted depends on the order of versions alone.
-/

namespace Thumbnailer

open Text

/-! ## What a program reports -/

section
variable (program : String) {child : Child}

end

/-! ## Points that do not count -/

section
variable {minimum v : Version}

end

/-- The program is accepted: a version comes back from checking it. -/
def Accepted (program : String) (minimum : Version) (child : Child) : Prop :=
  ∃ v, (verifyVersion program minimum child).1 = .ok v

section
variable {program : String} {minimum v : Version} {child : Child}

end

/-! ## The law of the check -/

end Thumbnailer
