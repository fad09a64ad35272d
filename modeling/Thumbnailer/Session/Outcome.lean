import Thumbnailer.Number.Double

/-!
# Outcomes of sessions
-/

namespace Thumbnailer

structure Outcome where
  success : Bool
  returnCode : Int
  stdout : String := ""
  stderr : String := ""
  command : String
  duration : Double := .zero false
  error : Option String := none
  cancelled : Bool := false
deriving DecidableEq, Repr

/-- A session that did not succeed. -/
structure RunError where
  cancelled : Bool
  message : String
  returnCode : Int
  stderr : String
  command : String
deriving DecidableEq, Repr

/-- The error of a session that did not succeed; one without a text of its own gets a general one. -/
def Outcome.runError? (o : Outcome) : Option RunError :=
  if o.success then none
  else
    let message := o.error.getD ""
    some {
      cancelled := o.cancelled
      message := if message.isEmpty then "ffmpeg failed" else message
      returnCode := o.returnCode
      stderr := o.stderr
      command := o.command }

end Thumbnailer
