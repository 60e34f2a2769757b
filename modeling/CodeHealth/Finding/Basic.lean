import CodeHealth.KeyMap
import CodeHealth.Path
import CodeHealth.Rule.Catalog

/-!
Findings and diagnostics. A finding is a violation of a rule at a place of a file; a diagnostic is
something that went wrong on the way and was passed over.
-/

namespace CodeHealth

structure Finding where
  ruleId : String
  message : String
  severity : Severity
  /-- The file, from the root of the project. -/
  file : Path
  /-- The line, from one. -/
  line : Nat
  /-- The column in characters, from one. -/
  column : Nat
  suggestion : Option String
  category : Option String
deriving DecidableEq, Repr, Inhabited

namespace Finding

/-- The order in which findings are shown: by file, line, column and rule. -/
def compare (a b : Finding) : Ordering :=
  (Path.compare a.file b.file).then <|
  (Ord.compare a.line b.line).then <|
  (Ord.compare a.column b.column).then <|
  Ord.compare a.ruleId b.ruleId

/-- Whether a finding may be shown before another. -/
def le (a b : Finding) : Bool := a.compare b != .gt

/-- Findings in the order in which they are shown; findings of equal place and rule keep their
order. -/
def sort (fs : List Finding) : List Finding := fs.mergeSort le

end Finding

/-- Something that went wrong and was passed over. -/
structure Diagnostic where
  file : Option Path
  ruleId : Option String
  message : String
deriving DecidableEq, Repr, Inhabited

structure SeverityCounts where
  error : Nat
  warning : Nat
  info : Nat
  total : Nat
deriving DecidableEq, Repr, Inhabited

namespace SeverityCounts

def ofFindings (fs : List Finding) : SeverityCounts where
  error := fs.countP (·.severity == .error)
  warning := fs.countP (·.severity == .warning)
  info := fs.countP (·.severity == .info)
  total := fs.length

/-- How many findings weigh at least as much as a threshold. -/
def atOrAbove (c : SeverityCounts) : Severity → Nat
  | .error => c.error
  | .warning => c.error + c.warning
  | .info => c.total

end SeverityCounts

structure Metrics where
  bySeverity : SeverityCounts
  /-- The number of findings of each category. -/
  byCategory : KeyMap Nat
  filesAnalyzed : Nat
deriving DecidableEq, Inhabited

end CodeHealth
