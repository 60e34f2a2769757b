import CodeHealth.Path
import CodeHealth.Rule.Options
import CodeHealth.Script.Tree
import CodeHealth.Text.Line
import CodeHealth.Text.Masking
import CodeHealth.Text.Occurrence

/-!
Checkers. A checker looks at one file and tells where a single rule is violated. It sees neither
other files nor what other checkers found.
-/

namespace CodeHealth.Check

/-- A violation, before it is known how much it weighs. -/
structure Hit where
  line : Nat
  column : Nat
  message : String
  suggestion : Option String
deriving DecidableEq, Repr, Inhabited

def Hit.at (p : Text.Position) (message suggestion : String) : Hit :=
  ⟨p.line, p.column, message, some suggestion⟩

/-- What a checker may look at. -/
structure Source where
  path : Path
  content : List Char
  /-- The content with comments and the contents of strings blanked. -/
  masked : List Char
  /-- The syntax tree, unless there is no grammar for the file or it could not be read. -/
  tree : Option Script.Tree
  options : Rule.Options

/-- What became of a check: hits, an error with its message, or a crash, with a message if the crash
came with one. -/
inductive Outcome where
  | hits (hs : List Hit)
  | failed (message : String)
  | crashed (message : Option String)
deriving DecidableEq, Repr, Inhabited

/-- What comes of looking for hits: a fault makes the check crash. -/
def Outcome.ofChecked : Text.Checked (List Hit) → Outcome
  | .ok hs => .hits hs
  | .error fault => .crashed (some fault.message)

structure Checker where
  ruleId : String
  /-- Whether the checker is to look at a file at all. -/
  appliesTo : Path → Bool
  check : Source → Outcome

/-- The hits of a recogniser in each line: `hit` says what to tell about the value read at an
index. -/
def hitsByLine {α : Type} (r : Text.Recogniser α) (text : List Char)
    (hit : Nat → List Char → Nat → α → Option Hit) : List Hit :=
  (Text.numberedLines text).flatMap fun (n, line) =>
    (Text.occurrences r line).filterMap fun (i, a) => hit n line i a

end CodeHealth.Check
