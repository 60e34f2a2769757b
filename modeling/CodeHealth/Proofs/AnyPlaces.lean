import CodeHealth.Check.ExplicitAny
import CodeHealth.Proofs.LineHits
import CodeHealth.Proofs.Recognition
import Mathlib.Data.List.Sort

/-!
The places of the type `any`.

The word is read together with what makes it a type: a mark, or the word `as`, with blanks behind it.
Readings do not overlap, but nothing is lost by that: inside a reading there is neither a mark nor
the start of the word `as`, so what makes a later `any` a type stands behind it.
-/

namespace CodeHealth.Proofs.AnyPlaces

open CodeHealth.Check CodeHealth.Text CodeHealth.Proofs.LineHits CodeHealth.Proofs.Recognition
  CodeHealth.Proofs.TextLines

/-! ### Places in a line -/

/-- The whole word `any` stands at an index of a line. -/
structure HoldsAny (l : List Char) (i : ℕ) : Prop where
  word : "any".toList <+: l.drop i
  starts : (l.take i).getLast?.any isWordChar = false
  ends : (l.drop (i + 3)).head?.any isWordChar = false

/-- A mark that a type may follow stands at an index of a line, with nothing but blanks up to
another. -/
structure MarkBefore (l : List Char) (j i : ℕ) : Prop where
  before : j < i
  mark : l[j]?.any precedesType = true
  blanks : Blanks l (j + 1) i

/-- The whole word `as` stands at an index of a line, with nothing but blanks up to another, and at
least one of them. -/
structure AsBefore (l : List Char) (j i : ℕ) : Prop where
  before : j + 2 < i
  word : "as".toList <+: l.drop j
  starts : (l.take j).getLast?.any isWordChar = false
  blanks : Blanks l (j + 2) i

/-- What stands at one index of a line makes the word at another a type. -/
def Introduces (l : List Char) (j i : ℕ) : Prop := MarkBefore l j i ∨ AsBefore l j i

/-- The word at an index of a line is the type `any`. -/
def IsAnyType (l : List Char) (i : ℕ) : Prop := HoldsAny l i ∧ ∃ j < i, Introduces l j i

instance (l : List Char) (i : ℕ) : Decidable (HoldsAny l i) :=
  decidable_of_iff (_ ∧ _ ∧ _) ⟨fun ⟨h, h', h''⟩ => ⟨h, h', h''⟩, fun h => ⟨h.1, h.2, h.3⟩⟩

instance (l : List Char) (j i : ℕ) : Decidable (MarkBefore l j i) :=
  decidable_of_iff (_ ∧ _ ∧ _) ⟨fun ⟨h, h', h''⟩ => ⟨h, h', h''⟩, fun h => ⟨h.1, h.2, h.3⟩⟩

instance (l : List Char) (j i : ℕ) : Decidable (AsBefore l j i) :=
  decidable_of_iff (_ ∧ _ ∧ _ ∧ _)
    ⟨fun ⟨h, h', h'', h'''⟩ => ⟨h, h', h'', h'''⟩, fun h => ⟨h.1, h.2, h.3, h.4⟩⟩

instance (l : List Char) (j i : ℕ) : Decidable (Introduces l j i) :=
  inferInstanceAs (Decidable (_ ∨ _))

instance (l : List Char) (i : ℕ) : Decidable (IsAnyType l i) :=
  inferInstanceAs (Decidable (_ ∧ ∃ j < i, _))

/-! ### Characters -/

lemma getElem?_of_starts {w l : List Char} {i k : ℕ} {c : Char} (h : w <+: l.drop i)
    (hk : w[k]? = some c) : l[i + k]? = some c := by
  obtain ⟨rest, hrest⟩ := h
  rw [← List.getElem?_drop, ← hrest, List.getElem?_append_left, hk]
  exact (List.getElem?_eq_some_iff.mp hk).1

lemma not_mark_of_isBlank {c : Char} (h : isBlank c = true) : precedesType c = false := by
  by_contra hmark
  simp only [precedesType, Bool.not_eq_false, Bool.or_eq_true, beq_iff_eq] at hmark
  rcases hmark with (((rfl | rfl) | rfl) | rfl) | rfl <;> exact absurd h (by decide)

lemma not_wordChar_of_mark {c : Char} (h : precedesType c = true) : isWordChar c = false := by
  simp only [precedesType, Bool.or_eq_true, beq_iff_eq] at h
  rcases h with (((rfl | rfl) | rfl) | rfl) | rfl <;> decide

section Line

variable {l left : List Char} {i j s : ℕ}

lemma le_length_of_starts {w : List Char} (h : w <+: l.drop i) (hw : w ≠ []) :
    i + w.length ≤ l.length := by
  have hle := h.length_le
  have hpos := List.length_pos_of_ne_nil hw
  rw [List.length_drop] at hle
  omega

lemma Introduces.exists_before (h : Introduces l j i) :
    ∃ c, l[i - 1]? = some c ∧ isWordChar c = false := by
  have hblank {k : ℕ} (hk : l[k]?.any isBlank = true) :
      ∃ c, l[k]? = some c ∧ isWordChar c = false := by
    obtain ⟨c, hc, hc'⟩ := (Option.any_eq_true _ _).mp hk
    exact ⟨c, hc, isWordChar_of_isBlank hc'⟩
  rcases h with ⟨hbefore, hmark, hblanks⟩ | ⟨hbefore, -, -, hblanks⟩
  · rcases Nat.eq_or_lt_of_le (Nat.le_sub_one_of_lt hbefore) with heq | hlt
    · obtain ⟨c, hc, hc'⟩ := (Option.any_eq_true _ _).mp hmark
      exact ⟨c, heq ▸ hc, not_wordChar_of_mark hc'⟩
    · exact hblank (hblanks (i - 1) (by omega) hlt)
  · exact hblank (hblanks (i - 1) (by omega) (by omega))

lemma Introduces.starts (h : Introduces l j i) : (l.take i).getLast?.any isWordChar = false := by
  obtain ⟨c, hc, hword⟩ := h.exists_before
  obtain ⟨hlt, -⟩ := List.getElem?_eq_some_iff.mp hc
  have hpos : 0 < i := by
    rcases h with h | h
    · exact Nat.zero_lt_of_lt h.before
    · exact Nat.zero_lt_of_lt h.before
  have hlast : (l.take i).getLast? = some c := by
    rw [List.getLast?_eq_getElem?, List.length_take, Nat.min_eq_left (by omega),
      List.getElem?_take_of_lt (by omega), hc]
  rw [hlast, Option.any_some, hword]

/-- What introduces a type starts with a mark or with the word `as`. -/
def OpensAt (l : List Char) (j : ℕ) : Prop :=
  l[j]?.any precedesType = true ∨ l[j]? = some 'a' ∧ l[j + 1]? = some 's'

lemma Introduces.opensAt (h : Introduces l j i) : OpensAt l j := by
  rcases h with h | h
  · exact .inl h.mark
  · exact .inr ⟨getElem?_of_starts (k := 0) h.word rfl, getElem?_of_starts (k := 1) h.word rfl⟩

lemma not_opensAt_of {k : ℕ} {c : Char} (hc : l[k]? = some c) (hmark : precedesType c = false)
    (ha : c = 'a' → l[k + 1]? ≠ some 's') : ¬ OpensAt l k := by
  rintro (h | ⟨h, h'⟩)
  · rw [hc, Option.any_some, hmark] at h
    cases h
  · rw [hc, Option.some.injEq] at h
    exact ha h h'

/-- **Inside of what is read nothing introduces a type.** -/
lemma Introduces.not_opensAt (h : Introduces l j i) (hany : "any".toList <+: l.drop i) {k : ℕ}
    (hjk : j < k) (hk : k < i + 3) : ¬ OpensAt l k := by
  have hletter := getElem?_of_starts (k := 0) hany rfl
  have hletter' := getElem?_of_starts (k := 1) hany rfl
  have hletter'' := getElem?_of_starts (k := 2) hany rfl
  have hblank (hk' : l[k]?.any isBlank = true) : ¬ OpensAt l k := by
    obtain ⟨c, hc, hc'⟩ := (Option.any_eq_true _ _).mp hk'
    refine not_opensAt_of hc (not_mark_of_isBlank hc') ?_
    rintro rfl
    exact absurd hc' (by decide)
  rcases Nat.lt_or_ge k i with hlt | hge
  · rcases h with h | h
    · exact hblank (h.blanks k hlt hjk)
    · rcases Nat.eq_or_lt_of_le hjk with rfl | hjk'
      · exact not_opensAt_of (getElem?_of_starts (k := 1) h.word rfl) (by decide) nofun
      · exact hblank (h.blanks k hlt hjk')
  · obtain rfl | rfl | rfl : k = i ∨ k = i + 1 ∨ k = i + 2 := by omega
    · refine not_opensAt_of hletter (by decide) fun _ => ?_
      rw [hletter']
      decide
    · exact not_opensAt_of hletter' (by decide) nofun
    · exact not_opensAt_of hletter'' (by decide) nofun

/-! ### Readings -/

lemma anyWord_drop :
    anyWord (l.drop i) = some left ↔
      "any".toList <+: l.drop i ∧ (l.drop (i + 3)).head?.any isWordChar = false ∧
        left = l.drop (i + 3) := by
  have hdrop : (l.drop i).drop "any".toList.length = l.drop (i + 3) := List.drop_drop
  unfold anyWord afterWord?
  by_cases hword : "any".toList <+: l.drop i
  · simp only [List.isPrefixOf_iff_prefix.mpr hword, if_true, hdrop, hword, true_and]
    cases (l.drop (i + 3)).head?.any isWordChar <;> simp [eq_comm]
  · have hnot : "any".toList.isPrefixOf (l.drop i) = false :=
      Bool.eq_false_iff.mpr fun h => hword (List.isPrefixOf_iff_prefix.mp h)
    simp only [hnot, Bool.false_eq_true, if_false, hword, false_and, reduceCtorEq]

lemma found_eq_some (hji : j ≤ i) :
    ((anyWord (l.drop i)).map fun left => ((l.drop j).length - (l.drop i).length, left)) =
        some (s, left) ↔
      i = j + s ∧ "any".toList <+: l.drop i ∧ (l.drop (i + 3)).head?.any isWordChar = false ∧
        left = l.drop (i + 3) := by
  rw [Option.map_eq_some_iff]
  constructor
  · rintro ⟨left', hany, heq⟩
    obtain ⟨hs, rfl⟩ := Prod.mk.inj heq
    obtain ⟨hword, hends, hleft⟩ := anyWord_drop.mp hany
    have hlength := hword.length_le
    rw [List.length_drop] at hlength hs
    rw [List.length_drop] at hs
    exact ⟨by simp at hlength; omega, hword, hends, hleft⟩
  · rintro ⟨rfl, hword, hends, hleft⟩
    refine ⟨left, anyWord_drop.mpr ⟨hword, hends, hleft⟩, ?_⟩
    have hlength := hword.length_le
    rw [List.length_drop] at hlength
    simp at hlength ⊢
    omega

/-- What is read at an index of a line, if something can be read there at all. -/
def found (l : List Char) (j : ℕ) (behind : List Char) : Option (ℕ × List Char) :=
  (anyWord behind).map fun left => ((l.drop j).length - behind.length, left)

lemma readingAt_mark (h : l[j]?.any precedesType = true) :
    readingAt anyType l j = found l j (skipBlanks (l.drop (j + 1))) := by
  obtain ⟨c, hc, hmark⟩ := (Option.any_eq_true _ _).mp h
  obtain ⟨hlt, rfl⟩ := List.getElem?_eq_some_iff.mp hc
  rw [readingAt, List.drop_eq_getElem_cons hlt, anyType, if_pos hmark, found,
    List.drop_eq_getElem_cons hlt]

lemma readingAt_other (h : l[j]?.any precedesType = false) :
    readingAt anyType l j =
      if atBoundary (l.take j).getLast? (l.drop j) then
        ((afterWord? "as".toList (l.drop j)).bind afterBlanks?).bind (found l j)
      else none := by
  cases hdrop : l.drop j with
  | nil => simp [readingAt, hdrop, anyType, afterWord?]
  | cons c cs =>
    have hc : l[j]? = some c := by rw [← List.head?_drop, hdrop]; rfl
    rw [hc, Option.any_some] at h
    rw [readingAt, hdrop, anyType, if_neg (by simp [h])]
    unfold found
    rw [hdrop]

lemma afterBlanks?_drop {k : ℕ} :
    afterBlanks? (l.drop k) =
      if l[k]?.any isBlank then some (skipBlanks (l.drop (k + 1))) else none := by
  rcases Nat.lt_or_ge k l.length with hlt | hge
  · rw [List.drop_eq_getElem_cons hlt, afterBlanks?, List.getElem?_eq_getElem hlt, Option.any_some]
  · rw [List.drop_eq_nil_of_le hge, afterBlanks?, List.getElem?_eq_none hge, Option.any_none]
    rfl

/-- The word `as` starts a word exactly if no word goes on there. -/
lemma atBoundary_of_as {before : Option Char} (h : "as".toList <+: l.drop j) :
    atBoundary before (l.drop j) = !before.any isWordChar := by
  have ha : (l.drop j).head? = some 'a' := by
    rw [List.head?_drop]
    exact getElem?_of_starts (k := 0) h rfl
  rw [atBoundary, ha]
  cases before.any isWordChar <;> decide

lemma Introduces.readingAt_eq (h : Introduces l j i) (hany : HoldsAny l i) :
    readingAt anyType l j = some (i - j, l.drop (i + 3)) := by
  have hji : j ≤ i := by
    rcases h with h | h
    · exact h.before.le
    · have hlt := h.before
      omega
  have hstop : l[i]?.any isBlank = false := by
    have hany : l[i]? = some 'a' := getElem?_of_starts (k := 0) hany.word rfl
    rw [hany]
    decide
  have hfound : found l j (l.drop i) = some (i - j, l.drop (i + 3)) :=
    (found_eq_some hji).mpr ⟨by omega, hany.word, hany.ends, rfl⟩
  rcases h with ⟨hbefore, hmark, hblanks⟩ | ⟨hbefore, hword, hstarts, hblanks⟩
  · rw [readingAt_mark hmark, skipBlanks_drop hbefore hblanks hstop, hfound]
  · have hmark : l[j]?.any precedesType = false := by
      have has : l[j]? = some 'a' := getElem?_of_starts (k := 0) hword rfl
      rw [has]
      decide
    have hafter : afterWord? "as".toList (l.drop j) = some (l.drop (j + 2)) := by
      rw [afterWord?, if_pos (List.isPrefixOf_iff_prefix.mpr hword), List.drop_drop]
      rfl
    have hblank := hblanks (j + 2) hbefore le_rfl
    have hskip := skipBlanks_drop hbefore (fun k hk hjk => hblanks k hk (by omega)) hstop
    rw [readingAt_other hmark, atBoundary_of_as hword, hstarts, hafter]
    simp [afterBlanks?_drop, hblank, hskip, hfound]

lemma introduces_of_readingAt (h : readingAt anyType l j = some (s, left)) :
    Introduces l j (j + s) ∧ HoldsAny l (j + s) ∧ left = l.drop (j + s + 3) := by
  suffices hintroduces : ∃ i, Introduces l j i ∧ j ≤ i ∧ found l j (l.drop i) = some (s, left) by
    obtain ⟨i, hi, hji, hfound⟩ := hintroduces
    obtain ⟨rfl, hword, hends, hleft⟩ := (found_eq_some hji).mp hfound
    exact ⟨hi, ⟨hword, hi.starts, hends⟩, hleft⟩
  cases hmark : l[j]?.any precedesType with
  | true =>
    -- a mark, and blanks behind it
    obtain ⟨i, hji, hblanks, hskip⟩ := exists_skipBlanks l (j + 1)
    rw [readingAt_mark hmark, hskip] at h
    exact ⟨i, .inl ⟨hji, hmark, hblanks⟩, by omega, h⟩
  | false =>
    -- the word, and one blank behind it at least
    rw [readingAt_other hmark] at h
    split_ifs at h with hboundary
    obtain ⟨behind, hread, hfound⟩ := Option.bind_eq_some_iff.mp h
    obtain ⟨rest, hafter, hblank⟩ := Option.bind_eq_some_iff.mp hread
    have hword : "as".toList <+: l.drop j := ⟨rest, (afterWord?_eq_some.mp hafter).symm⟩
    have hrest : rest = l.drop (j + 2) := by
      have hdrop := congrArg (List.drop 2) (afterWord?_eq_some.mp hafter)
      rw [List.drop_drop] at hdrop
      exact hdrop.symm
    rw [hrest, afterBlanks?_drop] at hblank
    split_ifs at hblank with hfirst
    obtain ⟨i, hji, hblanks, hskip⟩ := exists_skipBlanks l (j + 3)
    rw [Option.some.injEq, hskip] at hblank
    rw [atBoundary_of_as hword, Bool.not_eq_true'] at hboundary
    refine ⟨i, .inr ⟨hji, hword, hboundary, fun k hk hjk => ?_⟩, by omega, hblank ▸ hfound⟩
    rcases Nat.eq_or_lt_of_le hjk with rfl | hlt
    · exact hfirst
    · exact hblanks k hk hlt

/-- **Readings do not overlap.** -/
lemma noOverlap (l : List Char) : NoOverlap anyType l := by
  intro j k s s' left left' hjk hread hread'
  obtain ⟨hintro, hany, rfl⟩ := introduces_of_readingAt hread
  have hopens := (introduces_of_readingAt hread').1.opensAt
  have hbehind : j + s + 3 ≤ k := by
    by_contra! hlt
    exact hintro.not_opensAt hany.word hjk hlt hopens
  rw [List.length_drop]
  omega

end Line

/-! ### Lines -/

/-- The words that are read in a line are those that are the type `any`. -/
lemma map_occurrences (l : List Char) :
    (occurrences anyType l).map (fun o => o.1 + o.2) =
      (List.range l.length).filter fun i => decide (IsAnyType l i) := by
  have hpairwise : ((occurrences anyType l).map fun o => o.1 + o.2).Pairwise (· < ·) := by
    rw [List.pairwise_map]
    refine (pairwise_occurrences l).imp_of_mem fun {o o'} ho ho' hlt => ?_
    obtain ⟨left, hread⟩ := readingAt_of_mem ho
    obtain ⟨left', hread'⟩ := readingAt_of_mem ho'
    have hle := noOverlap l _ _ _ _ _ _ hlt hread hread'
    obtain ⟨-, hany, rfl⟩ := introduces_of_readingAt hread
    have hlength := le_length_of_starts hany.word (by decide)
    rw [List.length_drop] at hle
    simp at hlength
    omega
  refine hpairwise.eq_of_mem_iff (List.pairwise_lt_range.filter _) fun i => ?_
  simp only [List.mem_map, List.mem_filter, List.mem_range, decide_eq_true_eq]
  constructor
  · rintro ⟨⟨j, s⟩, hmem, rfl⟩
    obtain ⟨left, hread⟩ := readingAt_of_mem hmem
    obtain ⟨hintro, hany, -⟩ := introduces_of_readingAt hread
    have hlength := le_length_of_starts hany.word (by decide)
    have hlt : j < j + s := by
      rcases hintro with h | h
      · exact h.before
      · have hlt := h.before
        omega
    exact ⟨by simp at hlength; omega, hany, j, hlt, hintro⟩
  · rintro ⟨hi, hany, j, hji, hintro⟩
    have hmem := mem_occurrences_of_readingAt (noOverlap l) (by omega) (hintro.readingAt_eq hany)
    exact ⟨(j, i - j), hmem, by simp; omega⟩

/-! ### Files -/

/-- What is told about the type `any`. -/
def anyAdvice : String × String :=
  ("Unexpected `any`; the value is no longer type-checked",
    "Use a concrete type, a generic, or `unknown` with narrowing")

/-- The hits in a text: the types `any` of its lines. -/
def anyHits (text : List Char) : List Hit :=
  lineHits (fun l i => decide (IsAnyType l i)) (fun _ _ => anyAdvice) text

/-- **Every type `any` is told**, each once, at its own place and in order: the whole word behind a
mark or behind the word `as`, with blanks between them. None is lost because an earlier one on the
line stands in what makes it a type. Of each place is told what fits 32 bits, and that is all of it
if the places of the text fit. -/
theorem check_anyTypes (src : Source) :
    explicitAny.check src = .hits ((anyHits src.masked).map Hit.narrow) ∧
    (anyHits src.masked).Pairwise Before ∧
    (PlacesFit src.masked → explicitAny.check src = .hits (anyHits src.masked)) := by
  have hcheck : explicitAny.check src = .hits ((anyHits src.masked).map Hit.narrow) := by
    refine congrArg Outcome.hits (hitsByLine_eq (fun n l => ?_) src.masked)
    rw [toldIn, ← map_occurrences, List.map_map, ← List.filterMap_eq_map]
    rfl
  exact ⟨hcheck, pairwise_lineHits _, fun hfit => by rw [hcheck, anyHits, map_narrow_lineHits hfit]⟩

/-- Marks and words side by side. -/
example :
    let l := "f(a: any, b: Map<any,any> | any) as  any; as_any, has any, anyone, :any".toList
    (List.range l.length).filter (fun i => decide (IsAnyType l i)) = [5, 17, 21, 28, 37, 68] := by
  decide +kernel

end CodeHealth.Proofs.AnyPlaces
