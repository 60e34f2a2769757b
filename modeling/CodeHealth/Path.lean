/-!
Paths of files. A path is written as it was given, and read as its components: doubled and trailing
slashes and inner single dots do not count.
-/

namespace CodeHealth

structure Path where
  text : String
deriving DecidableEq, Repr, Inhabited

namespace Path

inductive Component where
  | root
  | here
  | parent
  | name (s : String)
deriving DecidableEq, Repr, Inhabited

namespace Component

/-- The place of a kind of component in the order. -/
def rank : Component → Nat
  | .root => 0
  | .here => 1
  | .parent => 2
  | .name _ => 3

def label : Component → String
  | .name s => s
  | _ => ""

/-- Components are ordered by kind, names by their characters. -/
def compare (a b : Component) : Ordering :=
  (Ord.compare a.rank b.rank).then (Ord.compare a.label b.label)

end Component

/-- The pieces of a text between slashes. -/
def pieces (s : String) : List String :=
  (s.toList.splitOn '/').map String.ofList

/-- The step that a piece stands for; an empty piece and a dot stand for none. -/
def step? (piece : String) : Option Component :=
  if piece = "" ∨ piece = "." then none
  else if piece = ".." then some .parent
  else some (.name piece)

/-- The components of a path. A dot counts only at the front. -/
def components (p : Path) : List Component :=
  match pieces p.text with
  | [] => []
  | first :: rest =>
    let steps := rest.filterMap step?
    if first = "" then if rest.isEmpty then [] else .root :: steps
    else if first = "." then .here :: steps
    else (step? first).toList ++ steps

def compare (a b : Path) : Ordering := List.compareLex Component.compare a.components b.components

def same (a b : Path) : Bool := a.components = b.components

/-- Whether a path may be listed before another. -/
def le (a b : Path) : Bool := a.compare b != .gt

/-- The list without paths that are the same as the one before them. -/
def dropRepeated : List Path → List Path
  | a :: b :: rest =>
    if a.same b then dropRepeated (a :: rest) else a :: dropRepeated (b :: rest)
  | paths => paths
termination_by paths => paths.length

/-- The paths in their order, each once; of its spellings the first is kept. -/
def sortDistinct (paths : List Path) : List Path := dropRepeated (paths.mergeSort le)

/-- The name of the file or directory that a path leads to. -/
def fileName? (p : Path) : Option String :=
  match p.components.getLast? with
  | some (.name s) => some s
  | _ => none

/-- What a name holds behind its last dot. A name that starts with its only dot has no
extension. -/
def extensionOf? (name : String) : Option String :=
  match name.toList.reverse.span (· != '.') with
  | (after, _ :: stem) => if stem.isEmpty then none else some (String.ofList after.reverse)
  | (_, []) => none

/-- The extension of the file that a path leads to. -/
def extension? (p : Path) : Option String := p.fileName?.bind extensionOf?

/-- The extension, or nothing as text. -/
def extension (p : Path) : String := p.extension?.getD ""

def scriptExtensions : List String := ["ts", "tsx", "mts", "cts", "js", "jsx", "mjs", "cjs"]

def isScript (p : Path) : Bool := p.extension?.any scriptExtensions.contains

def isTypeScript (p : Path) : Bool := p.extension?.any ["ts", "tsx", "mts", "cts"].contains

/-- Whether a path leads to a script that may hold markup. -/
def mayHoldMarkup (p : Path) : Bool := p.extension?.any ["tsx", "jsx", "js"].contains

end Path

end CodeHealth
