import CodeHealth.Analysis.FileSet
import CodeHealth.FileSystem
import CodeHealth.IgnoreFile

/-!
The files of a project that are looked at. A walk from the root of the project passes by what is
hidden, what an ignore file leaves out, and directories that hold no source; of the files it comes
to, scripts that were written by hand are taken, in the order of their paths.
-/

namespace CodeHealth

namespace Discovery

/-- Directories that are passed by wherever they stand below the root. -/
def excludedDirectories : List String :=
  ["node_modules", "dist", "build", ".next", "out", "coverage", ".git"]

def isHidden (name : String) : Bool := name.startsWith "."

/-- Whether a file was made by a tool: type declarations and shortened scripts. -/
def isGenerated (name : String) : Bool := name.endsWith ".d.ts" || name.endsWith ".min.js"

def isSource (name : String) : Bool :=
  (Path.extensionOf? name).any Path.scriptExtensions.contains && !isGenerated name

/-- Whether a walk goes on to an entry. The word of an ignore file counts more than a hidden
name. -/
def admits (scopes : List IgnoreScope) (name : String) (tree : FileTree) : Bool :=
  let visible := match IgnoreScope.verdict? scopes name tree.isDirectory with
    | some .ignored => false
    | some .kept => true
    | none => !isHidden name
  visible && !(tree.isDirectory && excludedDirectories.contains name)

mutual

/-- The places of the files that a walk of a tree comes to. -/
def walk (scopes : List IgnoreScope) : FileTree → List (List String)
  | .file _ => [[]]
  | .directory entries =>
    walkEntries (IgnoreScope.ofDirectory (.directory entries) :: scopes) entries

/-- The places of the files that a walk of the entries of a directory comes to. -/
def walkEntries (scopes : List IgnoreScope) : List (String × FileTree) → List (List String)
  | [] => []
  | (name, tree) :: rest =>
    (if admits scopes name tree then
      (walk (scopes.map (·.enter name)) tree).map (name :: ·)
    else []) ++ walkEntries scopes rest

end

/-- The ignore files of the directories above a place, the innermost first. -/
def scopesAbove : FileTree → List String → List IgnoreScope
  | _, [] => []
  | tree, name :: rest =>
    let scope := { IgnoreScope.ofDirectory tree with way := name :: rest }
    (match tree.entry? name with
      | some child => scopesAbove child rest
      | none => []) ++ [scope]

/-- The places of the files that are taken, below the root of a project. -/
def places (top : FileTree) (root : List String) : List (List String) :=
  match top.find? root with
  | some tree =>
    (walk (scopesAbove top root) tree).filter fun place => place.getLast?.any isSource
  | none => []

def paths (top : FileTree) (root : List String) : List Path :=
  ((places top root).map Path.ofNames).mergeSort Path.le

end Discovery

structure MissingRoot where
  root : Path
deriving DecidableEq, Repr

def MissingRoot.message (e : MissingRoot) : String :=
  "Project path does not exist: " ++ e.root.text

def readBelow (fs : FileSystem) (root p : Path) : Except FileError String :=
  match fs.readText (root.join p) with
  | .ok text => .ok text
  | .error .missing => .error (.notFound p)
  | .error .notUtf8 => .error (.notUtf8 p)
  | .error fault => .error (.unreadable p fault.message)

/-- The files of the project with the given root. -/
def discover (fs : FileSystem) (root : Path) : Except MissingRoot FileSet :=
  match fs.resolve root with
  | .error _ => .error ⟨root⟩
  | .ok place =>
    if (fs.top.find? place).any (·.isDirectory) then
      .ok ⟨Discovery.paths fs.top place, readBelow fs root⟩
    else .error ⟨root⟩

end CodeHealth
