import CodeHealth.Proofs.ComponentReading
import CodeHealth.Proofs.NestedMaps
import CodeHealth.Proofs.TagTests

/-!
The elements without a key that are found in the text of a component.

Behind the masking the only tag that starts inside the brackets of a `map` call is the tag of the
element. Calls inside of it close their brackets before another tag starts, so they give none.
-/

namespace CodeHealth.Proofs.TextKeys

open CodeHealth.Check CodeHealth.Text CodeHealth.Proofs.ArgumentPieces
  CodeHealth.Proofs.BracketCounts CodeHealth.Proofs.ByteScans CodeHealth.Proofs.ComponentReading
  CodeHealth.Proofs.Completion CodeHealth.Proofs.LinePlaces CodeHealth.Proofs.NestedMaps
  CodeHealth.Proofs.Recognition CodeHealth.Proofs.SteadyCheckers CodeHealth.Proofs.TagMasking
  CodeHealth.Proofs.TagPhrases CodeHealth.Proofs.TagTests CodeHealth.Proofs.TextLines

/-! ### Brackets that close -/

section Component

variable (t : Tag)

end Component

end CodeHealth.Proofs.TextKeys
