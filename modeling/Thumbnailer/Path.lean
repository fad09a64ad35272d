import Thumbnailer.Text.Blank

/-!
# Paths as text

Paths are cut and joined at slashes. The normal form of a path has no empty and no `.` components.
-/

namespace Thumbnailer.Path

def base (path : String) : String :=
  String.ofList (path.toList.reverse.takeWhile (· != '/')).reverse

def dropSlashes (path : List Char) : List Char := Text.stripEnd (· == '/') path

/-- What stands before the last slash, without the slashes at its end unless it has nothing else. -/
def directory (path : String) : String :=
  let head := (path.toList.reverse.dropWhile (· != '/')).reverse
  String.ofList (if head.all (· == '/') then head else dropSlashes head)

/-- A path below a directory; an absolute path stands for itself. -/
def join (directory path : String) : String :=
  if path.toList.head? = some '/' then path
  else if directory.isEmpty || directory.toList.getLast? = some '/' then directory ++ path
  else directory ++ "/" ++ path

def components (path : String) : List String :=
  ((path.toList.splitOn '/').filter fun c => !c.isEmpty && c != ['.']).map String.ofList

/-- The slashes that an absolute path starts with: two stay two, and any other number becomes one. -/
def root (path : String) : String :=
  match path.toList with
  | '/' :: '/' :: '/' :: _ => "/"
  | '/' :: '/' :: _ => "//"
  | '/' :: _ => "/"
  | _ => ""

/-- The path in its normal form; one without components is the current directory. -/
def normal (path : String) : String :=
  let text := root path ++ "/".intercalate (components path)
  if text.isEmpty then "." else text

/-- A file name without its extension. A point at either end of the name starts no extension. -/
def withoutExtension (name : String) : String :=
  let behind := name.toList.reverse.takeWhile (· != '.')
  let before := (name.toList.reverse.dropWhile (· != '.')).drop 1
  if behind.isEmpty || before.isEmpty then name else String.ofList before.reverse

/-- The last component without its extension; empty if there is no component. -/
def stem (path : String) : String := withoutExtension ((components path).getLast?.getD "")

end Thumbnailer.Path
