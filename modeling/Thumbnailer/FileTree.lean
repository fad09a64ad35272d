import Thumbnailer.OrderedMap
import Thumbnailer.Path
import Thumbnailer.SystemError

/-!
# File trees

Files and directories by their place, and paths looked up from a working directory. Every component before the
last must be a directory, and so must the last one if a slash follows it; `..` leads to the directory above. In a
directory that is closed nothing can be looked up, not even the directory itself.
-/

namespace Thumbnailer

inductive Node where
  | directory
  | file (content : List UInt8) (executable : Bool)
deriving DecidableEq, Repr

/-- A place: the names on the way to it from the root. -/
abbrev Place := List String

/-- A tree of files. The root itself is no entry. -/
structure FileTree where
  entries : OrderedMap Place Node
  current : Place
  /-- The directories that may not be searched. -/
  closed : List Place := []
deriving DecidableEq, Repr

inductive PathError where
  /-- No path holds the character with the code zero. -/
  | nullCharacter
  /-- The system refuses to do something with a path. -/
  | refused (reason : SystemError) (path : String)
deriving DecidableEq, Repr

def PathError.message : PathError → String
  | .nullCharacter => "embedded null byte"
  | .refused reason path => reason.message path

namespace FileTree

/-- The longest name of a file, in bytes. -/
def nameLimit : Nat := 255

/-- The longest path, in bytes. -/
def pathLimit : Nat := 4095

/-- The place where the files of a tree are put when nothing else is said. -/
def home : Place := ["work"]

def node? (t : FileTree) (p : Place) : Option Node :=
  if p.isEmpty then some .directory else t.entries.get? p

/-- Follows names from a place. -/
def follow (t : FileTree) (here : Place) : List String → Except SystemError Place
  | [] => .ok here
  | name :: rest =>
    match t.node? here with
    | none => .error .noEntry
    | some (.file ..) => .error .notDirectory
    | some .directory =>
      if name = "" then follow t here rest
      else if here ∈ t.closed then .error .denied
      else if name = "." then follow t here rest
      else if name = ".." then follow t here.dropLast rest
      else if name.utf8ByteSize > nameLimit then .error .nameTooLong
      else follow t (here ++ [name]) rest

/-- The place where looking up a path starts. -/
def start (t : FileTree) (path : String) : Place :=
  if path.toList.head? = some '/' then [] else t.current

/-- The names between the slashes of a path. -/
def names (path : String) : List String := (path.toList.splitOn '/').map String.ofList

/-- The path is one that the system looks at. -/
def checked (path : String) : Except SystemError Unit :=
  if path.isEmpty then .error .noEntry
  else if path.utf8ByteSize > pathLimit then .error .nameTooLong
  else .ok ()

def lookUp (t : FileTree) (path : String) : Except SystemError Node := do
  checked path
  match t.node? (← t.follow (t.start path) (names path)) with
  | some node => return node
  | none => throw .noEntry

def node (t : FileTree) (path : String) : Option Node :=
  if path.toList.contains '\x00' then none else (t.lookUp path).toOption

def exists? (t : FileTree) (path : String) : Bool := (t.node path).isSome

def isDirectory (t : FileTree) (path : String) : Bool := t.node path = some .directory

/-- A file whose execute permission is given to somebody. -/
def isExecutable (t : FileTree) (path : String) : Bool :=
  match t.node path with
  | some (.file _ executable) => executable
  | _ => false

/-- Whether a file stands at a path, which the system must be able to look at. -/
def fileAt (t : FileTree) (path : String) : Except PathError Bool :=
  if path.toList.contains '\x00' then .ok false
  else
    match t.lookUp path with
    | .ok (.file ..) => .ok true
    | .ok .directory => .ok false
    | .error reason => if reason.isAbsence then .ok false else .error (.refused reason path)

def firstFile? (t : FileTree) : List String → Except PathError (Option String)
  | [] => .ok none
  | path :: rest =>
    match t.fileAt path with
    | .error e => .error e
    | .ok true => .ok (some path)
    | .ok false => firstFile? t rest

def read (t : FileTree) (path : String) : Except PathError (List UInt8) :=
  if path.toList.contains '\x00' then .error .nullCharacter
  else
    match t.lookUp path with
    | .ok (.file content _) => .ok content
    | .ok .directory => .error (.refused .isDirectory path)
    | .error reason => .error (.refused reason path)

/-! ## Making directories -/

/-- Makes a directory that is not there in one that is. -/
def addDirectory (t : FileTree) (path : String) : Except SystemError FileTree := do
  checked path
  let given := (names (String.ofList (Path.dropSlashes path.toList)))
  let parent ← t.follow (t.start path) given.dropLast
  let name := given.getLast?.getD ""
  match t.node? parent with
  | none => throw .noEntry
  | some (.file ..) => throw .notDirectory
  | some .directory =>
    if name = "" then throw .fileExists
    else if parent ∈ t.closed then throw .denied
    else if name = "." || name = ".." then throw .fileExists
    else if name.utf8ByteSize > nameLimit then throw .nameTooLong
    else if (t.node? (parent ++ [name])).isSome then throw .fileExists
    else return { t with entries := t.entries.insert (parent ++ [name]) .directory }

/-- Makes a directory in one that is there, unless the path leads to a directory already. The tree stays
as it is when that fails. -/
def makeLast (t : FileTree) (path : String) : Except PathError FileTree :=
  if path.toList.contains '\x00' then .error .nullCharacter
  else
    match t.addDirectory path with
    | .ok t => .ok t
    | .error reason => if t.isDirectory path then .ok t else .error (.refused reason path)

/-- A path as the directory that its last component stands in and that component; slashes at its end do
not count. -/
def splitLast (path : String) : String × String :=
  let path := if (Path.base path).isEmpty then Path.directory path else path
  (Path.directory path, Path.base path)

/-- Makes a directory and those above it that are missing. The tree is given also when that fails, for some
directories may have been made. The fuel is the length of the path. -/
def makeDirectoriesWithin (fuel : Nat) (t : FileTree) (path : String) : Except PathError Unit × FileTree :=
  match fuel with
  | 0 => (.ok (), t)
  | fuel + 1 =>
    let (head, tail) := splitLast path
    let last (t : FileTree) : Except PathError Unit × FileTree :=
      match t.makeLast path with
      | .ok t => (.ok (), t)
      | .error e => (.error e, t)
    if head.isEmpty || tail.isEmpty || t.exists? head then last t
    else
      match makeDirectoriesWithin fuel t head with
      | (.error e, t) => (.error e, t)
      | (.ok (), t) => if tail = "." then (.ok (), t) else last t

/-- Makes a directory and those above it that are missing. -/
@[irreducible]
def makeDirectories (t : FileTree) (path : String) : Except PathError Unit × FileTree :=
  makeDirectoriesWithin (path.length + 1) t path

def directories (t : FileTree) : List String :=
  let below := t.entries.filterMap fun e =>
    if e.2 = .directory && t.current.isPrefixOf e.1 && e.1 != t.current then
      some ("/".intercalate (e.1.drop t.current.length))
    else none
  below.mergeSort fun a b => !(b < a)

/-! ## Building -/

/-- Puts something at a place and directories on the way to it. -/
def put (t : FileTree) (p : Place) (n : Node) : FileTree :=
  let above := (List.range p.length).drop 1 |>.map fun k => (p.take k, Node.directory)
  let missing := above.filter fun e => (t.node? e.1).isNone
  { t with entries := (t.entries.insertAll missing).insert p n }

/-- The tree of some files, given by their paths in the working directory. -/
def ofFiles (files : List (String × Node)) : FileTree :=
  let empty : FileTree := ({ entries := [], current := home } : FileTree).put home .directory
  files.foldl (fun t f => t.put (home ++ Path.components f.1) f.2) empty

end FileTree

end Thumbnailer
