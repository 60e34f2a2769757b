import CodeHealth.Path

/-!
Sets of files. A set lists the paths of its files and gives the text of a file on demand, so that a
file that cannot be read costs that file alone.
-/

namespace CodeHealth

/-- Why a file could not be read. -/
inductive FileError where
  | notFound (path : Path)
  | unreadable (path : Path) (reason : String)
  | notUtf8 (path : Path)
deriving DecidableEq, Repr

def FileError.message : FileError → String
  | .notFound path => "file not found: " ++ path.text
  | .unreadable path reason => "failed to read " ++ path.text ++ ": " ++ reason
  | .notUtf8 path => path.text ++ " is not valid UTF-8"

/-- Files that can be listed and read. -/
structure FileSet where
  paths : List Path
  read : Path → Except FileError String

/-- Files that are held in memory: their paths in the order in which they first came, and a table
of their texts. A file without a text cannot be read. -/
structure MemoryFiles where of ::
  paths : List Path
  contents : List (Path × Option String)
deriving DecidableEq, Repr, Inhabited

namespace MemoryFiles

def empty : MemoryFiles := .of [] []

/-- The table with the text of one path set; the path keeps its place and its first spelling. -/
def setEntry (path : Path) (text : Option String) :
    List (Path × Option String) → List (Path × Option String)
  | [] => [(path, text)]
  | (p, t) :: rest =>
    if p.same path then (p, text) :: rest else (p, t) :: setEntry path text rest

/-- What the table holds for a path, however it is spelled. -/
def content? (fs : MemoryFiles) (path : Path) : Option (Option String) :=
  (fs.contents.find? fun e => e.1.same path).map (·.2)

/-- The files with one more, or with a new text for a path that is there. -/
def add (fs : MemoryFiles) (path : Path) (text : Option String) : MemoryFiles where
  paths := if (fs.content? path).isSome then fs.paths else fs.paths ++ [path]
  contents := setEntry path text fs.contents

/-- Files that were added one after the other. -/
def mk (entries : List (Path × Option String)) : MemoryFiles :=
  entries.foldl (fun fs e => fs.add e.1 e.2) empty

/-- The text of a path, however it is spelled. -/
def read (fs : MemoryFiles) (path : Path) : Except FileError String :=
  match fs.content? path with
  | some (some text) => .ok text
  | some none => .error (.unreadable path "unreadable")
  | none => .error (.notFound path)

def toFileSet (fs : MemoryFiles) : FileSet := ⟨fs.paths, fs.read⟩

end MemoryFiles

end CodeHealth
