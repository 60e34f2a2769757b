import CodeHealth.Proofs.ComponentReading
import CodeHealth.Proofs.TreeAddresses

/-!
The elements without a key that the tree of a component holds.
-/

namespace CodeHealth.Proofs.TreeKeys

open CodeHealth.Check CodeHealth.Script CodeHealth.Text CodeHealth.Proofs.ScriptReading
  CodeHealth.Proofs.ValueReading CodeHealth.Proofs.TagPhrases CodeHealth.Proofs.MarkupReading
  CodeHealth.Proofs.ComponentReading

/-! ### Nodes -/

section Component

variable {t : Tag} {p q : Position} {u : Tree}

end Component

end CodeHealth.Proofs.TreeKeys
