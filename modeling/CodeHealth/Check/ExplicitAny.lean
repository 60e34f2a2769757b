import CodeHealth.Check.Basic
import CodeHealth.Rule.Catalog

/-!
The type `any`. The word is a type behind a mark that a type may follow, or behind the word `as`.
-/

namespace CodeHealth.Check

open Text

/-- Whether a type may follow a mark. -/
def precedesType (c : Char) : Bool := c == ':' || c == '<' || c == ',' || c == '|' || c == '&'

/-- Reads the whole word `any`. -/
def anyWord (rest : List Char) : Option (List Char) :=
  match afterWord? "any".toList rest with
  | some rest => if rest.head?.any isWordChar then none else some rest
  | none => none

/-- Reads `any` with what makes it a type before it: how many characters stand before it. -/
def anyType : Recogniser Nat := fun before rest =>
  let found (behind : List Char) : Option (Nat × List Char) :=
    (anyWord behind).map fun left => (rest.length - behind.length, left)
  match rest with
  | [] => none
  | c :: cs =>
    if precedesType c then found (skipBlanks cs)
    else if atBoundary before rest then
      ((afterWord? "as".toList rest).bind afterBlanks?).bind found
    else none

/-- Finds the type `any`. -/
def explicitAny : Checker where
  ruleId := Rule.explicitAny.id
  appliesTo := Path.isTypeScript
  check src :=
    .hits <| hitsByLine anyType src.masked fun n line i skipped =>
      some (.at ⟨n, columnAt line (offsetAt line (i + skipped))⟩
        "Unexpected `any`; the value is no longer type-checked"
        "Use a concrete type, a generic, or `unknown` with narrowing")

end CodeHealth.Check
