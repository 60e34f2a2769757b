import CodeHealth.Check.ComponentLength
import CodeHealth.Proofs.Recognition

/-!
What is read of the header of a component.

Each part of a header is read from what the part before it left, so what is left in the end is an
end of the text. The bracket before it is the one that opens the parameters, and the name of the
component starts before this bracket.
-/

namespace CodeHealth.Proofs.HeaderReading

open CodeHealth.Check CodeHealth.Text CodeHealth.Proofs.Recognition

/-- The header was read from the text: its bracket stands behind the start of its name. -/
def ReadFrom (rest : List Char) (h : Header) : Prop :=
  '(' :: h.parameters <:+ rest ∧ h.skipped + h.parameters.length < rest.length

lemma readFrom_of_suffix {rest named parameters : List Char} (hnamed : named <:+ rest)
    (hparameters : '(' :: parameters <:+ named) (name : List Char) :
    ReadFrom rest ⟨rest.length - named.length, name, parameters⟩ := by
  refine ⟨hparameters.trans hnamed, ?_⟩
  have h1 := hnamed.length_le
  have h2 := hparameters.length_le
  rw [List.length_cons] at h2
  dsimp only
  omega

lemma skipWordAndBlanks_suffix (word rest : List Char) : skipWordAndBlanks word rest <:+ rest := by
  unfold skipWordAndBlanks
  cases h : (afterWord? word rest).bind afterBlanks? with
  | none => exact List.suffix_rfl
  | some left => exact afterWordAndBlanks_suffix h

lemma capitalName_suffix {rest name left : List Char} (h : capitalName rest = some (name, left)) :
    left <:+ rest := by
  unfold capitalName at h
  split_ifs at h
  have hspan := spanWord_suffix rest
  rwa [Option.some.inj h] at hspan

lemma skipTypeParameters_suffix (rest : List Char) : skipTypeParameters rest <:+ rest := by
  unfold skipTypeParameters
  split
  · rename_i cs
    split
    · rename_i c left heq
      have hdrop := cs.dropWhile_suffix (· != '>')
      rw [heq] at hdrop
      exact ((List.suffix_cons c left).trans hdrop).trans (List.suffix_cons '<' cs)
    · exact List.suffix_rfl
  · exact List.suffix_rfl

lemma functionHeader_readFrom {before : Option Char} {rest left : List Char} {h : Header}
    (hread : functionHeader before rest = some (h, left)) : ReadFrom rest h := by
  unfold functionHeader at hread
  split_ifs at hread
  dsimp only at hread
  split at hread
  · cases hread
  · rename_i named hnamed
    split at hread
    · cases hread
    · rename_i name left hname
      obtain ⟨parameters, hmark, heq⟩ := Option.map_eq_some_iff.mp hread
      obtain ⟨rfl, rfl⟩ := Prod.mk.inj heq
      have hrest : named <:+ rest := by
        have hindent := rest.dropWhile_suffix isIndent
        refine (afterWordAndBlanks_suffix hnamed).trans ?_
        split
        · rename_i exported hexport
          exact ((skipWordAndBlanks_suffix _ exported).trans
            (afterWordAndBlanks_suffix hexport)).trans hindent
        · exact hindent
      have hparameters : '(' :: parameters <:+ named :=
        calc '(' :: parameters
          _ <:+ skipTypeParameters (skipBlanks left) := afterMark?_suffix hmark
          _ <:+ skipBlanks left := skipTypeParameters_suffix _
          _ <:+ left := skipBlanks_suffix left
          _ <:+ named := capitalName_suffix hname
      exact readFrom_of_suffix hrest hparameters name

lemma skipConstantType_suffix (rest : List Char) : skipConstantType rest <:+ rest := by
  unfold skipConstantType
  split
  · rename_i cs
    split_ifs
    · exact (cs.dropWhile_suffix _).trans (List.suffix_cons ':' cs)
    · exact List.suffix_rfl
  · exact List.suffix_rfl

lemma afterAnyOf?_suffix {words : List (List Char)} {rest word left : List Char}
    (h : afterAnyOf? words rest = some (word, left)) : left <:+ rest := by
  obtain ⟨w, -, hw⟩ := List.exists_of_findSome?_eq_some h
  obtain ⟨l, hl, heq⟩ := Option.map_eq_some_iff.mp hw
  cases heq
  exact afterWord?_suffix hl

lemma skipWrapper_suffix {rest left : List Char} (h : skipWrapper rest = some left) :
    left <:+ rest := by
  unfold skipWrapper at h
  have hstart : ∀ start, (afterWord? "React.".toList rest).getD rest = start →
      start <:+ rest := by
    rintro _ rfl
    cases hword : afterWord? "React.".toList rest with
    | none => exact List.suffix_rfl
    | some behind => exact afterWord?_suffix hword
  dsimp only at h
  split at h
  · rename_i word behind hword
    obtain ⟨inner, hmark, rfl⟩ := Option.map_eq_some_iff.mp h
    calc skipBlanks inner
      _ <:+ inner := skipBlanks_suffix inner
      _ <:+ '(' :: inner := List.suffix_cons '(' inner
      _ <:+ behind := afterMark?_suffix hmark
      _ <:+ (afterWord? "React.".toList rest).getD rest := afterAnyOf?_suffix hword
      _ <:+ rest := hstart _ rfl
  · cases h

lemma functionValue_suffix {rest parameters : List Char}
    (h : functionValue rest = some parameters) : '(' :: parameters <:+ rest := by
  unfold functionValue at h
  have hbracket := afterWord?_eq_some.mp h
  have hasync := skipWordAndBlanks_suffix "async".toList rest
  have hword : '(' :: parameters <:+ skipWordAndBlanks "async".toList rest := by
    rw [List.singleton_append] at hbracket
    rw [← hbracket]
    split
    · rename_i left hfunction
      split
      · exact List.suffix_rfl
      · exact (left.dropWhile_suffix _).trans (afterWord?_suffix hfunction)
    · exact List.suffix_rfl
  exact hword.trans hasync

lemma constantHeader_readFrom {before : Option Char} {rest left : List Char} {h : Header}
    (hread : constantHeader before rest = some (h, left)) : ReadFrom rest h := by
  unfold constantHeader at hread
  split_ifs at hread
  dsimp only at hread
  split at hread
  · cases hread
  · rename_i word behind hkeyword
    split at hread
    · cases hread
    · rename_i named hnamed
      split at hread
      · cases hread
      · rename_i name left hname
        split at hread
        · cases hread
        · rename_i value hvalue
          obtain ⟨parameters, hfunction, heq⟩ := Option.map_eq_some_iff.mp hread
          cases heq
          -- each part is read from what the one before left
          have hrest : named <:+ rest :=
            calc named
              _ <:+ behind := afterBlanks?_suffix hnamed
              _ <:+ skipWordAndBlanks "export".toList (rest.dropWhile isIndent) :=
                afterAnyOf?_suffix hkeyword
              _ <:+ rest.dropWhile isIndent := skipWordAndBlanks_suffix _ _
              _ <:+ rest := rest.dropWhile_suffix isIndent
          have hbehind : skipBlanks value <:+ named :=
            calc skipBlanks value
              _ <:+ value := skipBlanks_suffix value
              _ <:+ skipConstantType (skipBlanks left) := afterWord?_suffix hvalue
              _ <:+ skipBlanks left := skipConstantType_suffix _
              _ <:+ left := skipBlanks_suffix left
              _ <:+ named := capitalName_suffix hname
          refine readFrom_of_suffix hrest (List.IsSuffix.trans ?_ hbehind) name
          rcases Option.or_eq_some_iff.mp hfunction with hwrapped | ⟨-, hplain⟩
          · obtain ⟨inner, hwrapper, hinner⟩ := Option.bind_eq_some_iff.mp hwrapped
            exact (functionValue_suffix hinner).trans (skipWrapper_suffix hwrapper)
          · exact functionValue_suffix hplain

lemma exists_of_mem_headers {text : List Char} {i : ℕ} {h : Header} (hmem : (i, h) ∈ headers text) :
    '(' :: h.parameters <:+ text ∧ i + h.skipped + h.parameters.length < text.length := by
  obtain ⟨before, behind, left, rfl, rfl, hread⟩ : ∃ before behind left,
      text = before ++ behind ∧ before.length = i ∧ ReadFrom behind h := by
    rcases List.mem_append.mp hmem with hmem | hmem
    · obtain ⟨before, behind, left, htext, hlength, hread⟩ := exists_of_mem_occurrences hmem
      exact ⟨before, behind, left, htext, hlength, functionHeader_readFrom hread⟩
    · obtain ⟨before, behind, left, htext, hlength, hread⟩ := exists_of_mem_occurrences hmem
      exact ⟨before, behind, left, htext, hlength, constantHeader_readFrom hread⟩
  refine ⟨hread.1.trans (List.suffix_append before behind), ?_⟩
  have hlt := hread.2
  rw [List.length_append]
  omega

end CodeHealth.Proofs.HeaderReading
