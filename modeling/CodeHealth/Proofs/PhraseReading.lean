import CodeHealth.Proofs.OperandReading

/-!
Every value that is written is read.
-/

namespace CodeHealth.Proofs.PhraseReading

open CodeHealth.Script CodeHealth.Text CodeHealth.Proofs.ListReading
  CodeHealth.Proofs.OperandReading CodeHealth.Proofs.ScriptReading CodeHealth.Proofs.ValuePhrases
  CodeHealth.Proofs.ValueReading

/-! ### Phrases -/

variable {l : Language}

section Values

end Values

section Suffixes

end Suffixes

section Items

end Items

section Members

end Members

example : (parse .tsx "(\x7b a \x7d, ...b) => c".toList).isOk = true ∧
    (parse .tsx "(f()) => c".toList).isOk = false := by decide +kernel

end CodeHealth.Proofs.PhraseReading
