import CodeHealth.FileTree
import CodeHealth.Glob
import CodeHealth.Text.Line
import CodeHealth.Text.Occurrence

/-!
Ignore files. Each line of such a file is a rule on the entries below its directory; of the rules
that match an entry the last one decides whether it is left out or kept.
-/

namespace CodeHealth

structure IgnoreRule where
  pattern : Glob
  /-- Whether the rule keeps what it matches. -/
  keeps : Bool
  onlyDirectories : Bool
deriving Inhabited

namespace IgnoreRule

/-- A pattern that holds in every directory below, unless a slash in it ties it to the place of the
file. What stands inside `/**` is meant, not the directory itself. -/
def widen (anchored : Bool) (text : String) : String :=
  let text :=
    if anchored || text.contains '/' || text = "**" then text else "**/" ++ text
  if text.endsWith "/**" then text ++ "/*" else text

/-- The line without blanks at its end. A blank behind a backslash stays. -/
def trimLine (line : String) : String :=
  if line.endsWith "\\ " then line else String.ofList (Text.trimRight line.toList)

/-- The text without a slash at its end, and whether there was one. -/
def dropSlash (text : String) : String × Bool :=
  match text.toList.reverse with
  | '/' :: '\\' :: rest => (String.ofList rest.reverse, true)
  | '/' :: rest => (String.ofList rest.reverse, true)
  | _ => (text, false)

/-- The rule of a line that is neither blank nor a comment. -/
def ofLine? (line : String) : Option IgnoreRule :=
  let (keeps, anchored, body) : Bool × Bool × List Char :=
    match line.toList with
    | '\\' :: '!' :: rest => (false, false, '!' :: rest)
    | '\\' :: '#' :: rest => (false, false, '#' :: rest)
    | '!' :: '/' :: rest => (true, true, rest)
    | '!' :: rest => (true, false, rest)
    | '/' :: rest => (false, true, rest)
    | cs => (false, false, cs)
  let (text, onlyDirectories) := dropSlash (String.ofList body)
  (Glob.parse? (widen anchored text)).map fun pattern => ⟨pattern, keeps, onlyDirectories⟩

def appliesTo (r : IgnoreRule) (path : String) (isDirectory : Bool) : Bool :=
  (!r.onlyDirectories || isDirectory) && r.pattern.accepts path

end IgnoreRule

/-- Whether an entry is left out or kept. -/
inductive Verdict where
  | ignored
  | kept
deriving DecidableEq, Repr

/-- The rules of an ignore file, the last one first. -/
abbrev IgnoreFile := List IgnoreRule

namespace IgnoreFile

/-- The lines of a file. They end where a line is no text. -/
def linesOf (content : ByteArray) : List String :=
  ((content.toList.splitOn 10).map fun line =>
    (String.fromUTF8? ⟨line.toArray⟩).map fun s => String.ofList (Text.dropReturn s.toList)
  ).takeWhile Option.isSome |>.filterMap id

/-- The file without the mark that some texts begin with. -/
def dropMark : List String → List String
  | first :: rest => String.ofList (first.toList.dropWhile (· == '\uFEFF')) :: rest
  | [] => []

/-- The rules of a file. Lines that are blank, comments or no patterns say nothing. -/
def ofBytes (content : ByteArray) : IgnoreFile :=
  ((dropMark (linesOf content)).filterMap fun line =>
    if line.startsWith "#" then none
    else
      let line := IgnoreRule.trimLine line
      if line = "" then none else IgnoreRule.ofLine? line).reverse

/-- What a file says of an entry that is reached by names from the file's directory. -/
def verdict? (file : IgnoreFile) (names : List String) (isDirectory : Bool) : Option Verdict :=
  let path := "/".intercalate names
  (file.find? (·.appliesTo path isDirectory)).map fun r => if r.keeps then .kept else .ignored

end IgnoreFile

/-- The ignore files of a directory, and the names that lead from it to where a walk has come. -/
structure IgnoreScope where
  way : List String
  ignore : IgnoreFile
  gitIgnore : IgnoreFile
  gitExclude : IgnoreFile
deriving Inhabited

namespace IgnoreScope

def ofDirectory (directory : FileTree) : IgnoreScope :=
  let file (place : List String) : IgnoreFile :=
    ((directory.bytes? place).map IgnoreFile.ofBytes).getD []
  ⟨[], file [".ignore"], file [".gitignore"], file [".git", "info", "exclude"]⟩

/-- The scope after one step of a walk. -/
def enter (s : IgnoreScope) (name : String) : IgnoreScope := { s with way := s.way ++ [name] }

/-- What the scopes of a walk, the innermost first, say of an entry. A word of one kind of file
counts more than any word of the next kind. -/
def verdict? (scopes : List IgnoreScope) (name : String) (isDirectory : Bool) : Option Verdict :=
  let said (file : IgnoreScope → IgnoreFile) : Option Verdict :=
    scopes.findSome? fun s => (file s).verdict? (s.way ++ [name]) isDirectory
  ((said (·.ignore)).or (said (·.gitIgnore))).or (said (·.gitExclude))

end IgnoreScope

end CodeHealth
