import CodeHealth.Proofs.ArgumentPieces
import CodeHealth.Proofs.MaskedPlaces
import CodeHealth.Proofs.TagEnds
import CodeHealth.Proofs.TagPhrases

/-!
Tags behind the masking.

Values hold no quotes and no slashes, so they stay as they are, and so does all else of a tag but
what stands in quotes. The brackets of a masked tag are balanced.
-/

namespace CodeHealth.Proofs.TagMasking

open CodeHealth.Script CodeHealth.Text CodeHealth.Proofs.ArgumentPieces
  CodeHealth.Proofs.BracketCounts CodeHealth.Proofs.MaskedPlaces CodeHealth.Proofs.ScriptReading
  CodeHealth.Proofs.TagEnds CodeHealth.Proofs.TagPhrases CodeHealth.Proofs.ValuePhrases

/-! ### Characters of names -/

/-- What a piece of a masked tag is like: its brackets are balanced, no other tag starts in it, and
the tag does not end in it. -/
structure IsTagPiece (s : List Char) : Prop where
  balanced : Balanced s
  angle : '<' ∉ s
  tagEnd (rest : List Char) : tagEnd 0 (s ++ rest) = (tagEnd 0 rest).map (· + s.length)

lemma IsTagPiece.append {s s' : List Char} (h : IsTagPiece s) (h' : IsTagPiece s') :
    IsTagPiece (s ++ s') where
  balanced := h.balanced.append h'.balanced
  angle := fun hmem => (List.mem_append.mp hmem).elim h.angle h'.angle
  tagEnd rest := by
    rw [List.append_assoc, h.tagEnd, h'.tagEnd, Option.map_map, List.length_append]
    congr 1
    funext k
    simp only [Function.comp_apply]
    omega

end CodeHealth.Proofs.TagMasking
