import Thumbnailer.Number.Double
import Thumbnailer.SystemError
import Thumbnailer.Text.Lines
import Thumbnailer.Text.Utf8

/-!
# Child processes

What a child process does: the bytes it writes, how long it runs, and the code it ends with, by itself or when
it is killed.
-/

namespace Thumbnailer

/-- How a process comes to its end. -/
inductive Ending where
  /-- By itself. -/
  | exited
  | killed
deriving DecidableEq, Repr

structure Child where
  stdout : List UInt8 := []
  stderr : List UInt8 := []
  /-- The code of a process that exits by itself. -/
  code : Int := 0
  killCode : Int := -9
  /-- How long it runs. -/
  seconds : Double := .zero false
  /-- Why it cannot be started at all. -/
  startError : Option SystemError := none
  /-- It does not exit before it is told to. -/
  held : Bool := false
  /-- It stands in for a program, so that no arguments are handed to the system. -/
  standIn : Bool := false
deriving DecidableEq, Repr

namespace Child

/-- The system takes no argument with a null character, which would end it there. -/
def refuses (c : Child) (args : List String) : Bool := !c.standIn && args.any (·.toList.contains '\x00')

def endCode (c : Child) : Ending → Int
  | .exited => c.code
  | .killed => c.killCode

/-- Bytes as text with unified newlines. -/
def decoded (bytes : List UInt8) : List Char := Text.unifyNewlines (Text.decodeLossy bytes)

def stdoutText (c : Child) : List Char := decoded c.stdout

def stderrText (c : Child) : String := String.ofList (decoded c.stderr)

end Child

end Thumbnailer
