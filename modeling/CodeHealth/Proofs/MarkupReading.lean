import CodeHealth.Check.MissingKey
import CodeHealth.Proofs.PhraseReading
import CodeHealth.Proofs.TagPhrases

/-!
The script parser reads tags as they are written.
-/

namespace CodeHealth.Proofs.MarkupReading

open CodeHealth.Script CodeHealth.Text CodeHealth.Proofs.ListReading
  CodeHealth.Proofs.OperandReading CodeHealth.Proofs.PhraseReading CodeHealth.Proofs.ScriptReading
  CodeHealth.Proofs.TagPhrases CodeHealth.Proofs.ValuePhrases CodeHealth.Proofs.ValueReading

variable {g : Grammar} {c c' : Cursor} {gap gap' rest : List Char}

/-! ### Repetition -/

section Repetition

variable {α : Type} {item : Parser (Option α)} {n : ℕ} {found : List α}

end Repetition

/-! ### Names -/

section Braces

variable {v : List Char} {P : Position → Tree → Prop}

end Braces

/-! ### Attributes -/

section Attributes

end Attributes

/-! ### Tags -/

section Tags

end Tags

/-! ### Goals -/

section Goals

variable {l : Language}

end Goals

end CodeHealth.Proofs.MarkupReading
