import Thumbnailer.Text.Quoted

/-!
# Errors of the operating system
-/

namespace Thumbnailer

structure SystemError where
  number : Int
  text : String
deriving DecidableEq, Repr

namespace SystemError

/-- The reason, with the file it is about. -/
def message (e : SystemError) (file : String) : String :=
  s!"[Errno {e.number}] {e.text}: {Text.quoted file}"

def noEntry : SystemError := ⟨2, "No such file or directory"⟩

def denied : SystemError := ⟨13, "Permission denied"⟩

def fileExists : SystemError := ⟨17, "File exists"⟩

def notDirectory : SystemError := ⟨20, "Not a directory"⟩

def isDirectory : SystemError := ⟨21, "Is a directory"⟩

def nameTooLong : SystemError := ⟨36, "File name too long"⟩

/-- Nothing is there, or what stands on the way to it is no directory. -/
def isAbsence (e : SystemError) : Bool := e = noEntry || e = notDirectory

end SystemError

end Thumbnailer
