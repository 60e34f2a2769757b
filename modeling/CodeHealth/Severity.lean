import CodeHealth.Text.Lowercase
import CodeHealth.Text.Occurrence

/-!
How much a finding weighs.
-/

namespace CodeHealth

/-- The weight of a finding, from the lightest. -/
inductive Severity where
  | info
  | warning
  | error
deriving DecidableEq, Repr, Inhabited

namespace Severity

def name : Severity → String
  | .info => "info"
  | .warning => "warning"
  | .error => "error"

def rank : Severity → Nat
  | .info => 0
  | .warning => 1
  | .error => 2

/-- Whether a severity is as heavy as another or heavier. -/
def atLeast (s t : Severity) : Bool := t.rank ≤ s.rank

/-- What one finding takes from the score. -/
def penalty : Severity → Rat
  | .info => 1 / 2
  | .warning => 1
  | .error => 2

/-- The next heavier severity; the heaviest stays. -/
def escalate : Severity → Severity
  | .info => .warning
  | .warning => .error
  | .error => .error

/-- The severity of a name that is written exactly. -/
def ofName? : String → Option Severity
  | "info" => some .info
  | "warning" => some .warning
  | "error" => some .error
  | _ => none

/-- Reads a severity: letter case and blanks around it do not matter, and two names may be cut
short. The message names what is not a severity. -/
def parse (text : String) : Except String Severity :=
  match Text.lower (Text.trimmed text) with
  | "error" => .ok .error
  | "err" => .ok .error
  | "warning" => .ok .warning
  | "warn" => .ok .warning
  | "info" => .ok .info
  | other => .error
      ("unknown severity '" ++ other ++ "'. Valid severities: error, warning, info")

end Severity

end CodeHealth
