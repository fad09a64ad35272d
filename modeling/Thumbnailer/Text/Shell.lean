/-!
# Arguments as a shell command

An argument of safe characters stands as it is; any other is put between single quotes, and each single
quote in it is written as a closing quote, a quoted quote and an opening quote.
-/

namespace Thumbnailer.Text

/-- The characters that a shell reads as themselves. -/
def isShellSafe (c : Char) : Bool :=
  c.isAlphanum || "@%+=:,./-_".toList.contains c

def shellWord (arg : String) : String :=
  let s := arg.toList
  if !s.isEmpty && s.all isShellSafe then arg
  else
    let body := s.flatMap fun c => if c = '\x27' then "'\"'\"'".toList else [c]
    String.ofList ('\x27' :: body ++ ['\x27'])

def shellCommand (args : List String) : String := " ".intercalate (args.map shellWord)

end Thumbnailer.Text
