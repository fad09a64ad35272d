import Thumbnailer.FileTree

/-!
# Finding the encoder

Programs are looked for in the directories of a search path, and then in directories where builds of the encoder
are usually installed.
-/

namespace Thumbnailer

structure Machine where
  files : FileTree
  /-- The search path: directories with colons between them. -/
  searchPath : String := ""
  /-- Where builds of the encoder are usually installed. -/
  wellKnown : List String := []

namespace Machine

/-- The directories of the search path; an empty search path has none. -/
def searchDirectories (m : Machine) : List String :=
  if m.searchPath.isEmpty then [] else (m.searchPath.toList.splitOn ':').map String.ofList

/-- Looks for a program in the search path. A name with a directory is only looked for there. -/
def onSearchPath? (m : Machine) (name : String) : Option String :=
  if !(Path.directory name).isEmpty then
    if m.files.isExecutable name then some name else none
  else (m.searchDirectories.map (Path.join · name)).find? m.files.isExecutable

/-- Looks for a file with one of the names in the usual directories. -/
def installed? (m : Machine) (names : List String) : Except PathError (Option String) :=
  m.files.firstFile? (m.wellKnown.flatMap fun d => names.map fun name => Path.normal (Path.join d name))

def resolve? (m : Machine) (names : List String) : Except PathError (Option String) :=
  match names.findSome? m.onSearchPath? with
  | some path => .ok (some path)
  | none => m.installed? names

end Machine

def encoderNames : List String := ["ffmpeg", "ffmpeg.exe"]

/-! ## Usual directories -/

/-- The systems that keep programs in places of their own. -/
inductive Platform where
  | windows
  | darwin
  | other
deriving DecidableEq, Repr

def Platform.ofName (name : String) : Platform :=
  if name = "Windows" then .windows else if name = "Darwin" then .darwin else .other

def below (directory : String) (names : List String) : String := Path.normal (names.foldl Path.join directory)

/-- Where builds of the encoder are usually installed, for a user with this home. On Windows the directory
for the data of programs counts too, if there is one. -/
def usualDirectories (platform : Platform) (home : String) (programData : String) : List String :=
  match platform with
  | .windows =>
    [below home ["scoop", "shims"]] ++
      (if programData.isEmpty then [] else [below programData ["chocolatey", "bin"]]) ++ ["C:/ffmpeg/bin"]
  | .darwin => [below home [".local", "bin"], "/usr/local/bin", "/snap/bin", "/opt/homebrew/bin"]
  | .other => [below home [".local", "bin"], "/usr/local/bin", "/snap/bin"]

end Thumbnailer
