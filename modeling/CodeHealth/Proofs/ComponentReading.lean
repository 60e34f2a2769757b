import CodeHealth.Proofs.MarkupReading

/-!
The script parser reads a component that gives a list of elements.

The elements come from the function that a `map` call is given, and stand in braces between the tags
of the list. The tree is followed from inside: the tag, the function, the call, the list, the
component, the script.
-/

namespace CodeHealth.Proofs.ComponentReading

open CodeHealth.Script CodeHealth.Text CodeHealth.Proofs.ListReading CodeHealth.Proofs.MarkupReading
  CodeHealth.Proofs.OperandReading CodeHealth.Proofs.PhraseReading CodeHealth.Proofs.ScriptReading
  CodeHealth.Proofs.TagPhrases CodeHealth.Proofs.ValuePhrases CodeHealth.Proofs.ValueReading

variable {g : Grammar} {l : Language} {t : Tag}

/-! ### Texts -/

def spaced : Layout := ⟨[' '], rfl⟩

section List

variable {c c' : Cursor} {rest : List Char}

end List

/-! ### The component -/

section Component

end Component

/-! ### The script -/

section Statements

variable {c c' : Cursor} {gap rest : List Char}

end Statements

end CodeHealth.Proofs.ComponentReading
