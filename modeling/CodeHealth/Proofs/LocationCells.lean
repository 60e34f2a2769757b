import CodeHealth.Report.Table
import CodeHealth.Word
import Mathlib.Data.List.DropRight
import Mathlib.Data.Nat.Digits.Defs

/-!
Places in the cells of the table.

A place that is too long for its cell loses characters of the path alone. Line and column are words
of 32 bits, so each has ten digits at most, and what is kept of a place has room for both.
-/

namespace CodeHealth.Proofs.LocationCells

open CodeHealth.Report

/-! ### The last characters of a text -/

section LastChars

variable {n : ℕ} {s t : String}

lemma toList_lastChars (n : ℕ) (s : String) :
    (lastChars n s).toList = s.toList.drop (s.length - n) :=
  String.toList_ofList

lemma length_lastChars (h : n ≤ s.length) : (lastChars n s).length = n := by
  rw [← String.length_toList, toList_lastChars, List.length_drop, String.length_toList]
  omega

lemma exists_append_lastChars (n : ℕ) (s : String) : ∃ hidden, s = hidden ++ lastChars n s := by
  refine ⟨String.ofList (s.toList.take (s.length - n)), String.toList_injective ?_⟩
  rw [String.toList_append, String.toList_ofList, toList_lastChars, List.take_append_drop]

lemma lastChars_append (h : t.length ≤ n) :
    lastChars n (s ++ t) = lastChars (n - t.length) s ++ t := by
  have hcut : (s ++ t).length - n = s.length - (n - t.length) := by
    rw [String.length_append]
    omega
  apply String.toList_injective
  rw [String.toList_append, toList_lastChars, toList_lastChars, String.toList_append, hcut,
    List.drop_append_of_le_length]
  rw [String.length_toList]
  exact Nat.sub_le _ _

end LastChars

/-! ### Line and column -/

section Position

variable {f g : Finding} {n : ℕ}

/-- The line and the column of a finding, as they end its place. -/
def positionText (f : Finding) : String := ":" ++ toString f.line ++ ":" ++ toString f.column

lemma fullLocation_eq (f : Finding) : fullLocation f = f.file.text ++ positionText f := by
  simp only [fullLocation, positionText, String.append_assoc]

lemma length_toString_le (h : n < Word.bound32) : (toString n).length ≤ 10 := by
  have hpow : Word.bound32 ≤ 10 ^ 10 := by decide
  rw [Nat.toString_eq_repr]
  exact Nat.repr_length n 10 (by decide) (h.trans_le hpow)

lemma length_positionText_le (hline : f.line < Word.bound32) (hcolumn : f.column < Word.bound32) :
    (positionText f).length ≤ 22 := by
  have hcolon : ":".length = 1 := by decide
  have hl := length_toString_le hline
  have hc := length_toString_le hcolumn
  calc (positionText f).length
    _ = 1 + (toString f.line).length + 1 + (toString f.column).length := by
        rw [positionText, String.length_append, String.length_append, String.length_append, hcolon]
    _ ≤ 1 + 10 + 1 + 10 := by omega

lemma colon_notMem_toString (n : ℕ) : ':' ∉ (toString n).toList := by
  rw [Nat.toString_eq_repr, Nat.toList_repr]
  intro h
  exact absurd (Nat.isDigit_of_mem_toDigits (by decide) (by decide) h) (by decide)

lemma toString_inj {m n : ℕ} (h : (toString m).toList = (toString n).toList) : m = n := by
  rw [Nat.toString_eq_repr, Nat.toString_eq_repr, Nat.toList_repr, Nat.toList_repr] at h
  calc m
    _ = Nat.ofDigitChars 10 (Nat.toDigits 10 m) 0 := Nat.ofDigitChars_ten_toDigits.symm
    _ = Nat.ofDigitChars 10 (Nat.toDigits 10 n) 0 := by rw [h]
    _ = n := Nat.ofDigitChars_ten_toDigits

lemma rtakeWhile_append_cons {mark : Char} {back : List Char} (h : mark ∉ back)
    (front : List Char) : (front ++ mark :: back).rtakeWhile (· != mark) = back := by
  induction back using List.reverseRecOn with
  | nil => exact List.rtakeWhile_concat_neg _ _ _ (by simp)
  | append_singleton back c ih =>
    rw [List.mem_append, not_or, List.mem_singleton] at h
    rw [← List.cons_append, ← List.append_assoc, List.rtakeWhile_concat,
      if_pos (bne_iff_ne.mpr (Ne.symm h.2)), ih h.1]

lemma append_mark_inj {mark : Char} {front front' back back' : List Char} (hback : mark ∉ back)
    (hback' : mark ∉ back') (h : front ++ mark :: back = front' ++ mark :: back') :
    front = front' ∧ back = back' := by
  have heq : back = back' := by
    rw [← rtakeWhile_append_cons hback front, h, rtakeWhile_append_cons hback']
  subst heq
  exact ⟨(List.append_inj' h rfl).1, rfl⟩

lemma positionText_inj {front front' : String}
    (h : front ++ positionText f = front' ++ positionText g) :
    f.line = g.line ∧ f.column = g.column := by
  have hcolon : ":".toList = [':'] := by decide
  have hlist := congrArg String.toList h
  simp only [positionText, String.toList_append, hcolon, List.append_assoc,
    List.singleton_append] at hlist
  rw [← List.append_assoc, ← List.append_assoc] at hlist
  obtain ⟨hfront, hcolumn⟩ :=
    append_mark_inj (colon_notMem_toString _) (colon_notMem_toString _) hlist
  obtain ⟨-, hline⟩ := append_mark_inj (colon_notMem_toString _) (colon_notMem_toString _) hfront
  exact ⟨toString_inj hline, toString_inj hcolumn⟩

end Position

/-! ### Cells -/

variable {f : Finding}

lemma location_of_fits (h : (fullLocation f).length ≤ 28) : location f = fullLocation f :=
  if_neg (Nat.not_lt.mpr h)

lemma location_of_too_long (h : 28 < (fullLocation f).length) :
    location f = "..." ++ lastChars 25 (fullLocation f) :=
  if_pos h

lemma exists_append_positionText (hline : f.line < Word.bound32)
    (hcolumn : f.column < Word.bound32) : ∃ front, location f = front ++ positionText f := by
  have hroom := length_positionText_le hline hcolumn
  rcases Nat.lt_or_ge 28 (fullLocation f).length with hlong | hfits
  · rw [location_of_too_long hlong, fullLocation_eq, lastChars_append (by omega),
      ← String.append_assoc]
    exact ⟨_, rfl⟩
  · rw [location_of_fits hfits, fullLocation_eq]
    exact ⟨_, rfl⟩

/-- **A place in its cell keeps line and column.** It has no more characters than the cell is wide;
it is the place in full if that fits, and else dots and the last characters of it, which end with
the whole of line and column. So no line and no column is cut, and findings whose places look the
same in the table stand in the same line and column. -/
theorem location_keeps_position (f : Finding) (hline : f.line < Word.bound32)
    (hcolumn : f.column < Word.bound32) :
    (location f).length ≤ 28 ∧
    ((fullLocation f).length ≤ 28 → location f = fullLocation f) ∧
    (28 < (fullLocation f).length → ∃ hidden shown front,
      fullLocation f = hidden ++ shown ∧ shown.length = 25 ∧ location f = "..." ++ shown ∧
      shown = front ++ positionText f) ∧
    (∃ front, location f = front ++ positionText f) ∧
    ∀ g : Finding, g.line < Word.bound32 → g.column < Word.bound32 → location f = location g →
      f.line = g.line ∧ f.column = g.column := by
  refine ⟨?_, location_of_fits, fun hlong => ?_, exists_append_positionText hline hcolumn, ?_⟩
  · rcases Nat.lt_or_ge 28 (fullLocation f).length with hlong | hfits
    · have hdots : "...".length = 3 := by decide
      rw [location_of_too_long hlong, String.length_append, length_lastChars (by omega), hdots]
    · rwa [location_of_fits hfits]
  · obtain ⟨hidden, hsplit⟩ := exists_append_lastChars 25 (fullLocation f)
    have hroom := length_positionText_le hline hcolumn
    refine ⟨hidden, _, lastChars (25 - (positionText f).length) f.file.text, hsplit,
      length_lastChars (by omega), location_of_too_long hlong, ?_⟩
    rw [fullLocation_eq, lastChars_append (by omega)]
  · intro g hline' hcolumn' heq
    obtain ⟨front, hfront⟩ := exists_append_positionText hline hcolumn
    obtain ⟨front', hfront'⟩ := exists_append_positionText hline' hcolumn'
    exact positionText_inj (hfront.symm.trans (heq.trans hfront'))

/-- A finding far down and far to the right in a file with a long path. -/
def farFinding : Finding where
  ruleId := "no-var"
  message := "Unexpected var"
  severity := .warning
  file := ⟨"src/café/ページ.tsx"⟩
  line := 4294967295
  column := 4294967295
  suggestion := none
  category := none

theorem location_keeps_position_far :
    farFinding.line < Word.bound32 ∧ farFinding.column < Word.bound32 ∧
      28 < (fullLocation farFinding).length ∧
      location farFinding = "...tsx:4294967295:4294967295" ∧
      ∃ front, location farFinding = front ++ positionText farFinding := by
  have hkeeps := location_keeps_position farFinding (by decide) (by decide)
  exact ⟨by decide, by decide, by decide, by decide, hkeeps.2.2.2.1⟩

end CodeHealth.Proofs.LocationCells
