import CodeHealth.Proofs.AttributeLookup
import CodeHealth.Proofs.MarkupReading
import CodeHealth.Proofs.TagMasking
import CodeHealth.Text.Tag

/-!
What the tests on the text of a tag see.

A spread is seen where a brace stands right before three points, and a key where a blank stands
before the word and an equals sign or the end of the tag behind it. Both may be so inside of the
values of attributes, and need not be so where an attribute supplies a key.
-/

namespace CodeHealth.Proofs.TagTests

open CodeHealth.Script CodeHealth.Text CodeHealth.Proofs.MarkupReading
  CodeHealth.Proofs.OperandReading CodeHealth.Proofs.PhraseReading CodeHealth.Proofs.ScriptReading
  CodeHealth.Proofs.TagMasking CodeHealth.Proofs.TagPhrases CodeHealth.Proofs.ValuePhrases
  CodeHealth.Proofs.ValueReading
open CodeHealth.Proofs.AttributeLookup (findsAttribute_eq_shows followsName_blank followsName_cons
  isBlank_of_isAsciiBlank isPlain shows shows_blank shows_solid)

section Spreads

variable {rest : List Char}

end Spreads

/-! ### Keys -/

section Keys

variable {b : Bool} {rest : List Char}

end Keys

end CodeHealth.Proofs.TagTests
