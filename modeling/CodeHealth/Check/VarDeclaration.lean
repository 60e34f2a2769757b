import CodeHealth.Check.Basic
import CodeHealth.Rule.Catalog

/-!
Declarations with `var`. The word counts when blanks and then the start of a binding follow.
-/

namespace CodeHealth.Check

open Text

/-- Whether a character may start what a declaration binds. -/
def startsBinding (c : Char) : Bool :=
  isAsciiLetter c || c == '_' || c == '$' || c == '[' || c == '\x7b'

/-- Reads the word `var` with the start of a binding behind it. -/
def varWord (rest : List Char) : Option (List Char) :=
  match (afterWord? "var".toList rest).bind afterBlanks? with
  | some (c :: rest) => if startsBinding c then some rest else none
  | _ => none

/-- Reads a declaration at the start of a line, or behind a character that does not belong to a
name: whether there is such a character. -/
def varKeyword : Recogniser Bool := fun before rest =>
  let atStart := if before.isNone then (varWord rest).map (false, ·) else none
  atStart.or <|
    match rest with
    | c :: rest =>
      if c == '.' || isWordChar c || c == '$' then none else (varWord rest).map (true, ·)
    | [] => none

/-- Finds declarations with `var`. -/
def varDeclaration : Checker where
  ruleId := Rule.varDeclaration.id
  appliesTo := Path.isScript
  check src :=
    .hits <| hitsByLine varKeyword src.masked fun n line i behind =>
      let column := columnAt line (offsetAt line (if behind then i + 1 else i))
      some (.at ⟨n, column⟩ "Unexpected var; use let or const"
        "Use const for bindings that are never reassigned, let otherwise")

end CodeHealth.Check
