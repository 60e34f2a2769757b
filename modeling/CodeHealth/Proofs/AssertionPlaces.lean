import CodeHealth.Check.NonNullAssertion
import CodeHealth.Proofs.LineHits
import Mathlib.Data.List.Range
import Mathlib.Data.List.TakeWhile

/-!
The places of assertions that a value is not null.

An assertion is read together with the character before it and the mark behind it, and readings do
not overlap. A closing bracket is the only mark that may also stand before an assertion, so the one
thing that hides an assertion is one that was told two characters before it, with the bracket
between them. Of assertions that stand that close together every second one is told.
-/

namespace CodeHealth.Proofs.AssertionPlaces

open CodeHealth.Check CodeHealth.Text CodeHealth.Proofs.LineHits CodeHealth.Proofs.TextLines

/-! ### Places in a line -/

/-- Whether an assertion stands at an index of a line: an exclamation mark behind the end of an
expression, with a mark that may follow it or nothing but blanks up to the end of the line. -/
def assertsAt (l : List Char) : ℕ → Bool
  | 0 => false
  | j + 1 =>
    l[j]?.any endsExpression && l[j + 1]? == some '!' &&
      (l[j + 2]?.any followsAssertion || (l.drop (j + 2)).all isBlank)

/-- Whether the assertion at an index of a line is told: the closing bracket before it must not be
the mark behind an assertion that is told. -/
def toldAt (l : List Char) : ℕ → Bool
  | 0 => false
  | 1 => assertsAt l 1
  | j + 2 => assertsAt l (j + 2) && !(l[j + 1]? == some ')' && toldAt l j)

lemma assertsAt_of_toldAt {l : List Char} {j : ℕ} (h : toldAt l j = true) :
    assertsAt l j = true := by
  match j with
  | 1 => exact h
  | j + 2 => exact (Bool.and_eq_true_iff.mp h).1

lemma toldAt_eq_false {l : List Char} {j : ℕ} (h : assertsAt l j = false) :
    toldAt l j = false :=
  Bool.eq_false_iff.mpr fun htold => Bool.eq_false_iff.mp h (assertsAt_of_toldAt htold)

lemma toldAt_succ_of_free {l : List Char} {i : ℕ}
    (hfree : l[i]? = some ')' → toldAt l (i - 1) = false) :
    toldAt l (i + 1) = assertsAt l (i + 1) := by
  cases i with
  | zero => rfl
  | succ i =>
    rw [toldAt]
    cases htold : toldAt l i with
    | false => rw [Bool.and_false, Bool.not_false, Bool.and_true]
    | true =>
      have hne : (l[i + 1]? == some ')') = false := by
        rw [beq_eq_false_iff_ne]
        intro heq
        have := hfree heq
        rw [Nat.add_sub_cancel, htold] at this
        cases this
      rw [hne, Bool.false_and, Bool.not_false, Bool.and_true]

lemma assertsAt_of_ne {l : List Char} {j : ℕ} (h : l[j]? ≠ some '!') :
    assertsAt l j = false := by
  cases j with
  | zero => rfl
  | succ j => rw [assertsAt, beq_eq_false_iff_ne.mpr h, Bool.and_false, Bool.false_and]

/-- The only mark behind an assertion that may end an expression is a closing bracket. -/
lemma eq_of_follows_of_ends {c : Char} (hf : followsAssertion c = true)
    (he : endsExpression c = true) : c = ')' := by
  simp only [followsAssertion, Bool.or_eq_true, beq_iff_eq] at hf
  rcases hf with (((rfl | rfl) | rfl) | rfl) | rfl
  · exact absurd he (by decide)
  · exact absurd he (by decide)
  · rfl
  · exact absurd he (by decide)
  · exact absurd he (by decide)

/-! ### Readings -/

lemma isEmpty_skipBlanks (cs : List Char) : (skipBlanks cs).isEmpty = cs.all isBlank := by
  rw [Bool.eq_iff_iff, List.isEmpty_iff, skipBlanks, List.dropWhile_eq_nil_iff, List.all_eq_true]

/-- What a reading at an index finds, and how far it goes: up to the mark, or up to the end of the
line. -/
lemma assertion_cases {l : List Char} {i : ℕ} {c : Char} {cs : List Char}
    (hdrop : l.drop i = c :: cs) (before : Option Char) :
    (assertion before (c :: cs) = none ∧ assertsAt l (i + 1) = false) ∨
    assertsAt l (i + 1) = true ∧ ∃ left, assertion before (c :: cs) = some ((), left) ∧
      (cs.length - left.length = 2 ∧ l[i + 2]?.any followsAssertion = true ∨
        left = [] ∧ (l.drop (i + 2)).all isBlank = true) := by
  have hget (k : ℕ) : l[i + k]? = (c :: cs)[k]? := by rw [← hdrop, List.getElem?_drop]
  have hrest : l.drop (i + 2) = (c :: cs).drop 2 := by rw [← hdrop, List.drop_drop]
  have hfirst : l[i]? = some c := hget 0
  rw [assertsAt, hfirst, hget 1, hget 2, hrest]
  rcases cs with _ | ⟨d, after⟩
  · exact .inl ⟨rfl, by simp⟩
  by_cases hd : d = '!'
  · subst hd
    simp only [assertion, List.getElem?_cons_succ, List.drop_succ_cons, List.drop_zero,
      Option.any_some, ← List.head?_eq_getElem?, isEmpty_skipBlanks]
    cases endsExpression c with
    | false => exact .inl ⟨rfl, rfl⟩
    | true =>
      -- behind the mark stands what may follow it, or nothing but blanks up to the end
      cases hfollows : after.head?.any followsAssertion with
      | true =>
        refine .inr ⟨rfl, after.drop 1, rfl, .inl ⟨?_, rfl⟩⟩
        cases after with
        | nil => cases hfollows
        | cons e after =>
          simp only [List.length_cons, List.drop_succ_cons, List.drop_zero]
          omega
      | false =>
        cases after.all isBlank with
        | true => exact .inr ⟨rfl, [], rfl, .inr ⟨rfl, rfl⟩⟩
        | false => exact .inl ⟨rfl, rfl⟩
  · refine .inl ⟨?_, ?_⟩
    · rw [assertion]
      rintro _ _ h
      exact hd (List.cons.inj (List.cons.inj h).2).1
    · simp [hd]

/-! ### The scan of a line -/

/-- The scan stands right at an index: nothing is told in the characters that are still to be passed,
nor at the one after them, whose bracket was not taken either. -/
structure Passed (l : List Char) (i skip : ℕ) : Prop where
  skipped : ∀ k < skip, toldAt l (i + 1 + k) = false
  next : toldAt l (i + skip) = false
  free : l[i + skip]? = some ')' → toldAt l (i + skip - 1) = false

lemma passed_start (l : List Char) : Passed l 0 0 := ⟨nofun, rfl, fun _ => rfl⟩

lemma Passed.succ {l : List Char} {i skip : ℕ} (h : Passed l i (skip + 1)) :
    Passed l (i + 1) skip := by
  have hi : i + (skip + 1) = i + 1 + skip := by omega
  refine ⟨fun k hk => ?_, hi ▸ h.next, hi ▸ h.free⟩
  have hskipped := h.skipped (k + 1) (Nat.succ_lt_succ hk)
  rwa [← Nat.add_assoc, Nat.add_right_comm] at hskipped

lemma Passed.step {l : List Char} {i : ℕ} (h : Passed l i 0)
    (hnot : toldAt l (i + 1) = false) : Passed l (i + 1) 0 :=
  ⟨nofun, hnot, fun _ => h.next⟩

lemma passed_mark {l : List Char} {i : ℕ} (htold : toldAt l (i + 1) = true)
    (hmark : l[i + 2]?.any followsAssertion = true) : Passed l (i + 1) 2 := by
  obtain ⟨c, hc⟩ : ∃ c, l[i + 2]? = some c := by
    cases hc : l[i + 2]? with
    | none => rw [hc] at hmark; cases hmark
    | some c => exact ⟨c, rfl⟩
  rw [hc, Option.any_some] at hmark
  have hatMark : toldAt l (i + 2) = false := by
    refine toldAt_eq_false (assertsAt_of_ne ?_)
    rw [hc]
    rintro ⟨⟩
    exact absurd hmark (by decide)
  have hbehind : toldAt l (i + 3) = false := by
    rw [toldAt, htold, Bool.and_true, hc]
    cases hends : endsExpression c with
    | false => rw [assertsAt, hc, Option.any_some, hends, Bool.false_and, Bool.false_and]; rfl
    | true => rw [eq_of_follows_of_ends hmark hends, beq_self_eq_true, Bool.not_true, Bool.and_false]
  refine ⟨fun k hk => ?_, hbehind, fun _ => hatMark⟩
  rcases Nat.le_one_iff_eq_zero_or_eq_one.mp (Nat.le_of_lt_succ hk) with rfl | rfl
  · exact hatMark
  · exact hbehind

/-- Behind an assertion at the end of a line nothing more is told. -/
lemma passed_end {l : List Char} {i : ℕ} {c : Char} {cs : List Char}
    (hdrop : l.drop i = c :: cs) (hblank : (l.drop (i + 2)).all isBlank = true) :
    Passed l (i + 1) cs.length := by
  have hlength : l.length = i + 1 + cs.length := by
    have h := congrArg List.length hdrop
    rw [List.length_drop, List.length_cons] at h
    omega
  have hnot (k : ℕ) : toldAt l (i + 2 + k) = false := by
    refine toldAt_eq_false (assertsAt_of_ne fun hmark => ?_)
    rw [← List.getElem?_drop] at hmark
    exact absurd (List.all_eq_true.mp hblank _ (List.mem_of_getElem? hmark)) (by decide)
  have hend : l[i + 1 + cs.length]? = none := List.getElem?_eq_none hlength.le
  refine ⟨fun k _ => hnot k, ?_, fun h => ?_⟩
  · refine toldAt_eq_false (assertsAt_of_ne ?_)
    rw [hend]
    exact nofun
  · rw [hend] at h
    cases h

/-- **The readings of a line** are the assertions that are told, each with the character before
it. -/
lemma map_occurrencesFrom {l rest : List Char} {i skip : ℕ} (before : Option Char)
    (hdrop : l.drop i = rest) (hpassed : Passed l i skip) :
    (occurrencesFrom assertion before i skip rest).map (fun o => o.1 + 1) =
      (List.range' (i + 1) rest.length).filter (toldAt l) := by
  induction rest generalizing before i skip with
  | nil => cases skip <;> rfl
  | cons c cs ih =>
    have hcs : l.drop (i + 1) = cs := by rw [← List.drop_drop, hdrop]; rfl
    rw [List.length_cons, List.range'_succ, List.filter_cons]
    cases skip with
    | succ skip =>
      have hnot : toldAt l (i + 1) = false := hpassed.1 0 (Nat.succ_pos skip)
      rw [occurrencesFrom, ih _ hcs hpassed.succ, hnot]
      rfl
    | zero =>
      have hfree := toldAt_succ_of_free hpassed.free
      rcases assertion_cases hdrop before with ⟨hnone, hnot⟩ | ⟨hasserts, left, hsome, hhow⟩
      · simp only [occurrencesFrom, hnone]
        rw [ih _ hcs (hpassed.step (hfree.trans hnot)), hfree, hnot]
        rfl
      · have hpassed' : Passed l (i + 1) (cs.length - left.length) := by
          rcases hhow with ⟨hlength, hmark⟩ | ⟨rfl, hblank⟩
          · rw [hlength]
            exact passed_mark (hfree.trans hasserts) hmark
          · exact passed_end hdrop hblank
        simp only [occurrencesFrom, hsome, List.map_cons]
        rw [ih _ hcs hpassed', hfree, hasserts]
        rfl

lemma map_occurrences (l : List Char) :
    (occurrences assertion l).map (fun o => o.1 + 1) =
      (List.range l.length).filter (toldAt l) := by
  have hend : toldAt l l.length = false := by
    refine toldAt_eq_false (assertsAt_of_ne ?_)
    rw [List.getElem?_eq_none le_rfl]
    exact nofun
  -- nothing is told at the first index nor at the end, so both may be counted or not
  have hrange : (0 :: List.range' 1 l.length).filter (toldAt l) =
      (List.range l.length ++ [l.length]).filter (toldAt l) := by
    rw [← List.range_succ, List.range_succ_eq_map, List.range'_eq_map_range]
    congr 2
    exact List.map_congr_left fun k _ => Nat.add_comm 1 k
  rw [List.filter_append, List.filter_cons_of_neg (by simp [toldAt]),
    List.filter_cons_of_neg (by simp [hend]), List.filter_nil, List.append_nil] at hrange
  rw [← hrange]
  exact map_occurrencesFrom none List.drop_zero (passed_start l)

/-! ### Files -/

def assertionAdvice : String × String :=
  ("Non-null assertion bypasses null checks",
    "Narrow with a check or optional chaining (`?.`) instead")

/-- The hits at chosen indices of the lines of a text, from left to right. -/
def hitsAt (chosen : List Char → ℕ → Bool) (text : List Char) : List Hit :=
  lineHits chosen (fun _ _ => assertionAdvice) text

lemma check_eq (src : Source) :
    nonNullAssertion.check src = .hits ((hitsAt toldAt src.masked).map Hit.narrow) := by
  refine congrArg Outcome.hits (hitsByLine_eq (fun n l => ?_) src.masked)
  rw [toldIn, ← map_occurrences, List.map_map, ← List.filterMap_eq_map]
  rfl

lemma lt_length_of_assertsAt {l : List Char} {j : ℕ} (h : assertsAt l j = true) :
    j < l.length := by
  by_contra! hle
  rw [assertsAt_of_ne] at h
  · cases h
  · rw [List.getElem?_eq_none hle]
    exact nofun

/-- Two assertions of a line with nothing but a closing bracket between them. -/
def Adjoin (l : List Char) (j : ℕ) : Prop :=
  assertsAt l j = true ∧ l[j + 1]? = some ')' ∧ assertsAt l (j + 2) = true

lemma exists_hidden {l : List Char} {j : ℕ} (h : Adjoin l j) :
    ∃ k, assertsAt l k = true ∧ toldAt l k = false := by
  obtain ⟨hfirst, hbracket, hsecond⟩ := h
  cases htold : toldAt l j with
  | false => exact ⟨j, hfirst, htold⟩
  | true =>
    refine ⟨j + 2, hsecond, ?_⟩
    rw [toldAt, hbracket, htold, beq_self_eq_true, Bool.and_true, Bool.not_true, Bool.and_false]

lemma toldAt_of_not_adjoin {l : List Char} (h : ∀ j, ¬ Adjoin l j) (j : ℕ) :
    toldAt l j = assertsAt l j := by
  refine Bool.eq_iff_iff.mpr ⟨assertsAt_of_toldAt, fun hasserts => ?_⟩
  match j with
  | 1 => exact hasserts
  | j + 2 =>
    by_contra hhidden
    rw [toldAt, hasserts, Bool.true_and, Bool.not_eq_true', Bool.not_eq_false, Bool.and_eq_true,
      beq_iff_eq] at hhidden
    exact h j ⟨assertsAt_of_toldAt hhidden.2, hhidden.1, hasserts⟩

/-- **Every second of adjoining assertions is told.** The checker tells the assertions of each line
from left to right, each with its own column, but for those whose bracket was taken by the one told
before; these are all assertions if and only if in no line two of them adjoin. Of each place is told
what fits 32 bits. -/
theorem check_assertions (src : Source) :
    nonNullAssertion.check src = .hits ((hitsAt toldAt src.masked).map Hit.narrow) ∧
    (nonNullAssertion.check src = .hits ((hitsAt assertsAt src.masked).map Hit.narrow) ↔
      ∀ l ∈ lines src.masked, ∀ j, ¬ Adjoin l j) := by
  refine ⟨check_eq src, ?_⟩
  rw [check_eq, Outcome.hits.injEq]
  constructor
  · intro heq l hline j hadjoin
    -- as many are told as there are, so all of them are
    have hlength := congrArg List.length heq
    rw [List.length_map, List.length_map] at hlength
    have hall : hitsAt toldAt src.masked = hitsAt assertsAt src.masked :=
      (lineHits_sublist (fun _ _ => assertsAt_of_toldAt) _).eq_of_length hlength
    obtain ⟨k, hasserts, hnot⟩ := exists_hidden hadjoin
    obtain ⟨n, hn⟩ := exists_mem_countedLines hline
    have hmem : .at ⟨n, k + 1⟩ assertionAdvice.1 assertionAdvice.2 ∈ hitsAt assertsAt src.masked :=
      mem_lineHits.mpr ⟨n, l, k, hn, lt_length_of_assertsAt hasserts, hasserts, rfl⟩
    rw [← hall] at hmem
    obtain ⟨n', l', k', hn', -, htold, hhit⟩ := mem_lineHits.mp hmem
    obtain ⟨rfl, rfl⟩ : n' = n ∧ k' = k := by
      simpa [Hit.at] using hhit
    rw [eq_of_mem_countedLines hn' hn, hnot] at htold
    cases htold
  · intro h
    rw [hitsAt, hitsAt, lineHits, lineHits]
    congr 1
    refine List.flatMap_congr fun numbered hmem => ?_
    obtain ⟨n, l⟩ := numbered
    have htold : toldAt l = assertsAt l :=
      funext (toldAt_of_not_adjoin (h l (mem_lines_of_mem_countedLines hmem)))
    simp only [htold]

/-- An expression in brackets whose value and whose part are both asserted. -/
def adjoining : Source where
  path := ⟨"cart.ts"⟩
  content := "const total = (cart!)!.total;\n".toList
  masked := mask "const total = (cart!)!.total;\n".toList
  tree := none
  options := .empty

/-- Of two assertions that adjoin one is told. -/
theorem check_adjoining :
    nonNullAssertion.check adjoining =
      .hits [.at ⟨1, 20⟩ assertionAdvice.1 assertionAdvice.2] ∧
    (hitsAt assertsAt adjoining.masked).map Hit.narrow =
      [.at ⟨1, 20⟩ assertionAdvice.1 assertionAdvice.2,
        .at ⟨1, 22⟩ assertionAdvice.1 assertionAdvice.2] := by
  decide +kernel

end CodeHealth.Proofs.AssertionPlaces
