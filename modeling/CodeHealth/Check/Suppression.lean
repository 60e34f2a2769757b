import CodeHealth.Check.Basic
import CodeHealth.Rule.Catalog

/-!
Comments that switch type errors off. The directive is sought behind the start of a comment in the
same line; this rule looks at the content as it is, since comments are blanked in the masked text.
-/

namespace CodeHealth.Check

open Text

def directives : List (List Char) := ["@ts-ignore".toList, "@ts-nocheck".toList]

/-- The first directive of a text: how many characters stand before it, the directive, and what is
left behind it. -/
def firstDirective : Nat → List Char → Option (Nat × List Char × List Char)
  | _, [] => none
  | n, c :: cs =>
    match afterAnyOf? directives (c :: cs) with
    | some (word, rest) =>
      if rest.head?.any isWordChar then firstDirective (n + 1) cs else some (n, word, rest)
    | none => firstDirective (n + 1) cs

/-- Reads a comment up to a directive: how many characters stand before the directive, and the
directive. -/
def suppressionComment : Recogniser (Nat × List Char) := fun _ rest =>
  match rest with
  | '/' :: c :: cs =>
    if c == '/' || c == '*' then
      (firstDirective 2 cs).map fun (n, word, left) => ((n, word), left)
    else none
  | _ => none

/-- Finds comments that switch type errors off. -/
def suppression : Checker where
  ruleId := Rule.suppression.id
  appliesTo := Path.isScript
  check src :=
    .hits <| hitsByLine suppressionComment src.content fun n line i (skipped, word) =>
      some (.at ⟨n, columnAt line (offsetAt line (i + skipped))⟩
        ("`" ++ String.ofList word ++ "` suppresses type errors")
        "Fix the underlying type error, or use @ts-expect-error with a reason")

end CodeHealth.Check
