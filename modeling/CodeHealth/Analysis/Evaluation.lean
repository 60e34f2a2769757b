import CodeHealth.Analysis.FileSet
import CodeHealth.Check.Builtin
import CodeHealth.Finding.Basic
import CodeHealth.Rule.Resolution
import CodeHealth.Script.Parser

/-!
Evaluation of files by checkers. The checkers of a file run apart from each other: one that fails
or crashes costs its own hits and leaves a diagnostic.
-/

namespace CodeHealth

structure FileEvaluation where
  findings : List Finding
  diagnostics : List Diagnostic
deriving DecidableEq, Repr, Inhabited

/-- What was found in a set of files. -/
structure Evaluation where
  findings : List Finding
  diagnostics : List Diagnostic
  filesAnalyzed : Nat
  /-- The number of files that were not started because the run was cancelled. -/
  filesSkipped : Nat
deriving DecidableEq, Repr, Inhabited

/-- A finding for a hit. Lines and columns count from one. -/
def Finding.ofHit (r : Rule.Entry) (severity : Severity) (path : Path) (h : Check.Hit) :
    Finding where
  ruleId := r.id
  message := h.message
  severity := severity
  file := path
  line := max h.line 1
  column := max h.column 1
  suggestion := h.suggestion
  category := some r.category

/-- The findings for the hits of a rule. Hits of a rule that the catalog does not know are
dropped. -/
def findingsOfHits (ruleId : String) (path : Path) (config : Rule.Config) (hs : List Check.Hit) :
    List Finding :=
  match Rule.find? ruleId with
  | some r => hs.map (.ofHit r ((config.severityFor r.id).getD r.severity) path)
  | none => []

def evaluateOutcome (ruleId : String) (path : Path) (config : Rule.Config) :
    Check.Outcome → List Finding × List Diagnostic
  | .hits hs => (findingsOfHits ruleId path config hs, [])
  | .failed message => ([], [⟨some path, some ruleId, "rule failed: " ++ message⟩])
  | .crashed message =>
    ([], [⟨some path, some ruleId, "rule panicked: " ++ message.getD "Unknown panic"⟩])

def activeCheckers (checkers : List Check.Checker) (path : Path) (config : Rule.Config) :
    List Check.Checker :=
  checkers.filter fun c => config.isEnabled c.ruleId && c.appliesTo path

/-- The syntax tree of a file and what is to be told about it. -/
def treeOfFile (path : Path) (content : List Char) : Option Script.Tree × List Diagnostic :=
  match Script.Language.ofPath? path with
  | none => (none, [])
  | some language =>
    match Script.parse language content with
    | .ok tree => (some tree, [])
    | .error e =>
      (none, [⟨some path, none, e.message ++ "; falling back to text heuristics"⟩])

def evaluateFile (checkers : List Check.Checker) (config : Rule.Config) (path : Path)
    (content : String) : FileEvaluation :=
  match activeCheckers checkers path config with
  | [] => ⟨[], []⟩
  | active =>
    let text := content.toList
    let masked := Text.mask text
    let (tree, noTree) := treeOfFile path text
    let outcomes := active.map fun c =>
      evaluateOutcome c.ruleId path config
        (c.check ⟨path, text, masked, tree, config.optionsFor c.ruleId⟩)
    ⟨Finding.sort (outcomes.flatMap (·.1)), noTree ++ outcomes.flatMap (·.2)⟩

inductive FileOutcome where
  | evaluated (result : FileEvaluation)
  | unreadable (diagnostic : Diagnostic)
  | skipped
deriving DecidableEq, Repr, Inhabited

/-- A report of progress: the file that was done, how many are done, and how many there are. -/
structure Progress where
  path : Path
  done : Nat
  total : Nat
deriving DecidableEq, Repr

structure Engine where
  checkers : List Check.Checker
  /-- The run is cancelled when so many files are done. -/
  cancelAfter : Option Nat

def outcomeOf (checkers : List Check.Checker) (config : Rule.Config) (files : FileSet)
    (path : Path) : FileOutcome :=
  match files.read path with
  | .ok content => .evaluated (evaluateFile checkers config path content)
  | .error e => .unreadable ⟨some path, none, e.message⟩

/-- Whether a run is cancelled when so many files are done. -/
def Engine.isCancelled (e : Engine) (done : Nat) : Bool := e.cancelAfter.any (· ≤ done)

/-- The outcomes of files in their order, when some are done already. -/
def Engine.outcomes (e : Engine) (config : Rule.Config) (files : FileSet) :
    Nat → List Path → List FileOutcome
  | _, [] => []
  | done, p :: ps =>
    if e.isCancelled done then .skipped :: e.outcomes config files done ps
    else outcomeOf e.checkers config files p :: e.outcomes config files (done + 1) ps

/-- The reports of progress of a run: one for each file that is started. -/
def Engine.progress (e : Engine) (total : Nat) : Nat → List Path → List Progress
  | _, [] => []
  | done, p :: ps =>
    if e.isCancelled done then [] else ⟨p, done + 1, total⟩ :: e.progress total (done + 1) ps

namespace FileOutcome

def findings : FileOutcome → List Finding
  | .evaluated r => r.findings
  | _ => []

def diagnostics : FileOutcome → List Diagnostic
  | .evaluated r => r.diagnostics
  | .unreadable d => [d]
  | .skipped => []

def isEvaluated : FileOutcome → Bool
  | .evaluated _ => true
  | _ => false

def isSkipped : FileOutcome → Bool
  | .skipped => true
  | _ => false

end FileOutcome

def cancelledDiagnostic (skipped total : Nat) : Diagnostic :=
  ⟨none, none, "analysis cancelled; " ++ toString skipped ++ " of " ++ toString total ++
    " files skipped"⟩

def Evaluation.ofOutcomes (os : List FileOutcome) : Evaluation :=
  let skipped := os.countP (·.isSkipped)
  { findings := Finding.sort (os.flatMap (·.findings))
    diagnostics := os.flatMap (·.diagnostics) ++
      (if 0 < skipped then [cancelledDiagnostic skipped os.length] else [])
    filesAnalyzed := os.countP (·.isEvaluated)
    filesSkipped := skipped }

def Engine.run (e : Engine) (config : Rule.Config) (files : FileSet) : Evaluation :=
  .ofOutcomes (e.outcomes config files 0 files.paths)

end CodeHealth
