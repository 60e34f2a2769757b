import CodeHealth.Check.Basic
import CodeHealth.Rule.Catalog

/-!
Assertions that a value is not null: an exclamation mark behind an expression.
-/

namespace CodeHealth.Check

open Text

/-- Whether an expression may end with a character. -/
def endsExpression (c : Char) : Bool := isWordChar c || c == ')' || c == ']'

/-- Whether an assertion may be followed by a character. -/
def followsAssertion (c : Char) : Bool :=
  c == '.' || c == '[' || c == ')' || c == ';' || c == ','

/-- Reads the end of an expression, an exclamation mark, and what has to follow it: one of a few
marks, or nothing but blanks. -/
def assertion : Recogniser Unit := fun _ rest =>
  match rest with
  | c :: '!' :: after =>
    if !endsExpression c then none
    else if after.head?.any followsAssertion then some ((), after.drop 1)
    else if (skipBlanks after).isEmpty then some ((), [])
    else none
  | _ => none

def nonNullAssertion : Checker where
  ruleId := Rule.nonNullAssertion.id
  appliesTo := Path.isTypeScript
  check src :=
    .hits <| hitsByLine assertion src.masked fun n line i _ =>
      some (.at ⟨n, columnAt line (offsetAt line (i + 1))⟩ "Non-null assertion bypasses null checks"
        "Narrow with a check or optional chaining (`?.`) instead")

end CodeHealth.Check
