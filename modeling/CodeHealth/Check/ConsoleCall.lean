import CodeHealth.Check.Basic
import CodeHealth.Rule.Catalog

/-!
Calls of the console. An option lists methods that may be called.
-/

namespace CodeHealth.Check

open Text

/-- Reads a call of a method of the console: the name of the method. -/
def consoleMethod : Recogniser (List Char) := fun before rest =>
  if !atBoundary before rest then none
  else match afterWord? "console.".toList rest with
    | none => none
    | some rest =>
      match spanWord rest with
      | ([], _) => none
      | (name, rest) => (afterMark? '(' rest).map (name, ·)

/-- The items of a list that is written with commas, without blanks around them; blank items do not
count. -/
def commaList (text : String) : List (List Char) :=
  ((text.toList.splitOn ',').map trim).filter fun item => !item.isEmpty

def consoleCall : Checker where
  ruleId := Rule.consoleCall.id
  appliesTo := Path.isScript
  check src :=
    let allowed := commaList (src.options.stringOr "allow" "")
    .hits <| hitsByLine consoleMethod src.masked fun n line i name =>
      if allowed.contains name then none
      else some (.at ⟨n, columnAt line (offsetAt line i)⟩
        ("Unexpected console." ++ String.ofList name ++ " call")
        "Remove it or route it through the application's logger")

end CodeHealth.Check
