import CodeHealth.FileTree
import CodeHealth.Path

/-!
File systems. Paths are followed from the top of a tree or from a working directory, step by step;
each step has to start in a directory.
-/

namespace CodeHealth

namespace Path

def join (base p : Path) : Path :=
  if p.text.startsWith "/" then p
  else if base.text = "" ∨ base.text.endsWith "/" then ⟨base.text ++ p.text⟩
  else ⟨base.text ++ "/" ++ p.text⟩

/-- Whether a path can lead to a directory alone: it ends with a slash or with a dot. -/
def asksDirectory (p : Path) : Bool :=
  match (pieces p.text).getLast? with
  | some last => last = "" || last = "."
  | none => false

/-- The components of the directory that a path's last step starts from. -/
def parentComponents (p : Path) : List Component := p.components.dropLast

/-- The directory that a path's last step starts from, as a path. -/
def parent (p : Path) : Path :=
  let written : Component → String
    | .root => ""
    | .here => "."
    | .parent => ".."
    | .name n => n
  match p.parentComponents with
  | [] => ⟨"."⟩
  | [.root] => ⟨"/"⟩
  | steps => ⟨"/".intercalate (steps.map written)⟩

def ofNames (names : List String) : Path := ⟨"/".intercalate names⟩

end Path

/-- Why there is nothing to be had from a file system. -/
inductive FileFault where
  | missing
  | notDirectory
  | isDirectory
  | notUtf8
deriving DecidableEq, Repr

def FileFault.message : FileFault → String
  | .missing => "No such file or directory (os error 2)"
  | .notDirectory => "Not a directory (os error 20)"
  | .isDirectory => "Is a directory (os error 21)"
  | .notUtf8 => "stream did not contain valid UTF-8"

/-- A tree and the place of the working directory in it. -/
structure FileSystem where
  top : FileTree
  current : List String
deriving Inhabited

namespace FileSystem

def step (fs : FileSystem) (place : List String) (c : Path.Component) :
    Except FileFault (List String) :=
  match fs.top.find? place with
  | none => .error .missing
  | some (.file _) => .error .notDirectory
  | some (.directory entries) =>
    match c with
    | .root => .ok []
    | .here => .ok place
    | .parent => .ok place.dropLast
    | .name n => if (entries.lookup n).isSome then .ok (place ++ [n]) else .error .missing

/-- The place that steps from the working directory lead to. -/
def follow (fs : FileSystem) (steps : List Path.Component) : Except FileFault (List String) :=
  steps.foldlM fs.step fs.current

def resolve (fs : FileSystem) (p : Path) : Except FileFault (List String) := do
  if p.text = "" then throw .missing
  let place ← fs.follow p.components
  if p.asksDirectory && !((fs.top.find? place).any (·.isDirectory)) then throw .notDirectory
  pure place

def find? (fs : FileSystem) (p : Path) : Option FileTree :=
  match fs.resolve p with
  | .ok place => fs.top.find? place
  | .error _ => none

def contains (fs : FileSystem) (p : Path) : Bool := (fs.find? p).isSome

def isDirectory (fs : FileSystem) (p : Path) : Bool := (fs.find? p).any (·.isDirectory)

def readText (fs : FileSystem) (p : Path) : Except FileFault String := do
  match fs.top.find? (← fs.resolve p) with
  | none => throw .missing
  | some (.directory _) => throw .isDirectory
  | some (.file content) =>
    match String.fromUTF8? content with
    | some text => pure text
    | none => throw .notUtf8

def absolute (place : List String) : Path := ⟨"/" ++ "/".intercalate place⟩

/-- The file system with a text written to the file that a path leads to. The file is made if its
directory is there. -/
def save (fs : FileSystem) (p : Path) (text : String) : Except FileFault FileSystem := do
  let written (place : List String) : FileSystem :=
    { fs with top := fs.top.addFile place text.toUTF8 }
  match fs.resolve p with
  | .ok place =>
    if (fs.top.find? place).any (·.isDirectory) then throw .isDirectory else pure (written place)
  | .error .missing =>
    match p.components.getLast? with
    | some (.name n) =>
      let place ← fs.follow p.parentComponents
      match fs.top.find? place with
      | some (.directory _) =>
        if p.asksDirectory then throw .isDirectory else pure (written (place ++ [n]))
      | some (.file _) => throw .notDirectory
      | none => throw .missing
    | _ => throw .missing
  | .error fault => throw fault

end FileSystem

end CodeHealth
