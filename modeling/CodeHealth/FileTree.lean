/-!
Trees of files. A directory holds its entries by name; a place in a tree is the list of names that
lead to it from the top.
-/

namespace CodeHealth

/-- A file with its bytes, or a directory with its entries. -/
inductive FileTree where
  | file (content : ByteArray)
  | directory (entries : List (String × FileTree))

namespace FileTree

/-- A directory without entries. -/
def empty : FileTree := .directory []

instance : Inhabited FileTree := ⟨empty⟩

def isDirectory : FileTree → Bool
  | .directory _ => true
  | .file _ => false

/-- The entries of a directory; a file has none. -/
def entries : FileTree → List (String × FileTree)
  | .directory entries => entries
  | .file _ => []

def entry? (tree : FileTree) (name : String) : Option FileTree := tree.entries.lookup name

def find? (tree : FileTree) : List String → Option FileTree
  | [] => some tree
  | name :: place => (tree.entry? name).bind (·.find? place)

/-- The bytes of the file at a place. -/
def bytes? (tree : FileTree) (place : List String) : Option ByteArray :=
  match tree.find? place with
  | some (.file content) => some content
  | _ => none

/-- The entries with one changed; an entry that is not there starts as an empty directory. -/
def modifyEntry (name : String) (change : FileTree → FileTree) :
    List (String × FileTree) → List (String × FileTree)
  | [] => [(name, change empty)]
  | (n, t) :: rest =>
    if n = name then (n, change t) :: rest else (n, t) :: modifyEntry name change rest

/-- The tree with a change at a place. The directories that lead there are made as needed. -/
def modify (change : FileTree → FileTree) : List String → FileTree → FileTree
  | [], tree => change tree
  | name :: place, tree => .directory (modifyEntry name (modify change place) tree.entries)

def addFile (tree : FileTree) (place : List String) (content : ByteArray) : FileTree :=
  tree.modify (fun _ => .file content) place

/-- The tree with a directory at a place; one that is there stays. -/
def addDirectory (tree : FileTree) (place : List String) : FileTree := tree.modify id place

/-- Whether a name can stand in a directory. -/
def IsName (name : String) : Prop :=
  name ≠ "" ∧ name ≠ "." ∧ name ≠ ".." ∧ '/' ∉ name.toList

/-- A tree in which the entries of each directory have distinct names, none of which means
something else in a path. -/
inductive WellFormed : FileTree → Prop where
  | file (content : ByteArray) : WellFormed (.file content)
  | directory {entries : List (String × FileTree)}
    (distinct : (entries.map (·.1)).Nodup) (names : ∀ e ∈ entries, IsName e.1)
    (inner : ∀ e ∈ entries, WellFormed e.2) : WellFormed (.directory entries)

end FileTree

end CodeHealth
