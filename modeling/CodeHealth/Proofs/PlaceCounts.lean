import CodeHealth.Proofs.LinePlaces
import CodeHealth.Proofs.Utf8Bytes
import CodeHealth.Word
import Mathlib.Data.List.DropRight

/-!
Places of a text, told by counts.

The line of an offset is the number of line feeds before it and one more, the column the number of
characters behind the last of them and one more, as far as they fit 32 bits. Both ways to compute a
place come to this: the one that searches the starts of the lines of the whole text, and the one that
numbers the lines and counts in a line alone. So where the counts fit, places further on in a text
are later, and no two are the same; a text with too many lines has one place twice.
-/

namespace CodeHealth.Proofs.PlaceCounts

open CodeHealth.Text CodeHealth.Proofs.TextLines CodeHealth.Proofs.LinePlaces
  CodeHealth.Proofs.Utf8Bytes

/-! ### The search for the line -/

section Search

variable {xs : List ℕ} {n i : ℕ} {answer : Except ℕ ℕ}

/-- What a search of an ascending list may answer: an index at which the number stands, or else how
many numbers stand before the place of a number that is not there. -/
inductive IsAnswer (xs : List ℕ) (n : ℕ) : Except ℕ ℕ → Prop
  | found {i : ℕ} : xs[i]? = some n → IsAnswer xs n (.ok i)
  | missing {front back : List ℕ} : xs = front ++ back → (∀ x ∈ front, x < n) →
      (∀ x ∈ back, n < x) → IsAnswer xs n (.error front.length)

lemma search_of_getElem? (h : xs.Pairwise (· < ·)) (hi : xs[i]? = some n) :
    search xs n = .ok i := by
  obtain ⟨hlt, rfl⟩ := List.getElem?_eq_some_iff.mp hi
  have hindex : xs.idxOf? xs[i] = some i :=
    List.idxOf?_eq_some_iff.mpr
      ⟨hlt, rfl, fun j hj => (List.pairwise_iff_getElem.mp h j i (hj.trans hlt) hlt hj).ne⟩
  rw [search, hindex]

lemma search_append {front back : List ℕ} (hfront : ∀ x ∈ front, x < n)
    (hback : ∀ x ∈ back, n < x) : search (front ++ back) n = .error front.length := by
  have hmissing : n ∉ front ++ back := by
    rw [List.mem_append, not_or]
    exact ⟨fun h => lt_irrefl n (hfront n h), fun h => lt_irrefl n (hback n h)⟩
  have hcount : (front ++ back).countP (· < n) = front.length := by
    rw [List.countP_append, List.countP_eq_length.mpr fun x hx => by simpa using hfront x hx,
      List.countP_eq_zero.mpr fun x hx => by simpa using (hback x hx).le, Nat.add_zero]
  rw [search, List.idxOf?_eq_none_iff.mpr hmissing, hcount]

lemma exists_append_of_notMem (h : xs.Pairwise (· < ·)) (hn : n ∉ xs) :
    ∃ front back, xs = front ++ back ∧ (∀ x ∈ front, x < n) ∧ ∀ x ∈ back, n < x := by
  induction xs with
  | nil => exact ⟨[], [], rfl, nofun, nofun⟩
  | cons x xs ih =>
    rw [List.mem_cons, not_or] at hn
    obtain ⟨hx, hxs⟩ := List.pairwise_cons.mp h
    rcases Nat.lt_or_gt_of_ne hn.1 with hlt | hgt
    · exact ⟨[], x :: xs, rfl, nofun,
        List.forall_mem_cons.mpr ⟨hlt, fun y hy => hlt.trans (hx y hy)⟩⟩
    · obtain ⟨front, back, rfl, hfront, hback⟩ := ih hxs hn.2
      exact ⟨x :: front, back, rfl, List.forall_mem_cons.mpr ⟨hgt, hfront⟩, hback⟩

lemma isAnswer_iff (h : xs.Pairwise (· < ·)) : IsAnswer xs n answer ↔ answer = search xs n := by
  constructor
  · rintro (hi | ⟨rfl, hfront, hback⟩)
    · exact (search_of_getElem? h hi).symm
    · exact (search_append hfront hback).symm
  · rintro rfl
    by_cases hn : n ∈ xs
    · obtain ⟨i, hi⟩ := List.mem_iff_getElem?.mp hn
      rw [search_of_getElem? h hi]
      exact .found hi
    · obtain ⟨front, back, rfl, hfront, hback⟩ := exists_append_of_notMem h hn
      rw [search_append hfront hback]
      exact .missing rfl hfront hback

end Search

/-! ### The starts of the lines -/

section Starts

variable {text : List Char} {offset n : ℕ}

lemma lt_of_mem_lineStartsFrom (h : n ∈ lineStartsFrom offset text) : offset < n := by
  induction text generalizing offset with
  | nil => cases h
  | cons c text ih =>
    rw [lineStartsFrom] at h
    split_ifs at h
    · rcases List.mem_cons.mp h with rfl | h
      · exact Nat.lt_succ_self offset
      · exact Nat.lt_of_succ_lt (ih h)
    · exact Nat.lt_of_le_of_lt (Nat.le_add_right _ _) (ih h)

lemma pairwise_lineStartsFrom (text : List Char) (offset : ℕ) :
    (lineStartsFrom offset text).Pairwise (· < ·) := by
  induction text generalizing offset with
  | nil => exact .nil
  | cons c text ih =>
    rw [lineStartsFrom]
    split_ifs
    · exact .cons (fun n hn => lt_of_mem_lineStartsFrom hn) (ih _)
    · exact ih _

lemma pairwise_lineStarts (text : List Char) : (lineStarts text).Pairwise (· < ·) :=
  .cons (fun _ hn => lt_of_mem_lineStartsFrom hn) (pairwise_lineStartsFrom text 0)

lemma lineStartsFrom_getElem? (front rest : List Char) (offset : ℕ) :
    (lineStartsFrom offset (front ++ '\n' :: rest))[front.count '\n']? =
      some (offset + byteLength front + 1) := by
  induction front generalizing offset with
  | nil => rfl
  | cons c front ih =>
    rw [List.cons_append, lineStartsFrom]
    by_cases hc : c = '\n'
    · subst hc
      rw [if_pos rfl, List.count_cons_self, List.getElem?_cons_succ, ih, byteLength_cons,
        ← Nat.add_assoc]
      rfl
    · rw [if_neg hc, List.count_cons_of_ne hc, ih, byteLength_cons, Nat.add_assoc offset]

end Starts

/-! ### Places by counts -/

section Counts

variable {text before : List Char} {o o' : ℕ} {p p' : Position}

/-- The place behind a text, by counts of line feeds and characters. -/
def countedPlace (before : List Char) : Position :=
  ⟨1 + before.count '\n', 1 + (before.rtakeWhile (· != '\n')).length⟩

/-- What is counted from character to character comes to the counts. -/
lemma after_eq_countedPlace (before : List Char) : Position.after before = countedPlace before := by
  induction before using List.reverseRecOn with
  | nil => rfl
  | append_singleton cs c ih =>
    rw [Position.after_snoc, ih, Position.advance, countedPlace, countedPlace,
      List.rtakeWhile_concat, List.count_append]
    by_cases hc : c = '\n'
    · subst hc
      rfl
    · rw [if_neg hc, if_pos (bne_iff_ne.mpr hc), List.count_singleton, if_neg (by simpa using hc),
        List.length_append]
      rfl

/-- An offset cuts a text between two characters, or at one of its ends, and the counts before it
are those of a place. -/
def CountsTo (text : List Char) (o : ℕ) (p : Position) : Prop :=
  ∃ before behind, text = before ++ behind ∧ byteLength before = o ∧ countedPlace before = p

lemma CountsTo.placeAt (h : CountsTo text o p) : placeAt text o = .ok p.narrow := by
  obtain ⟨before, behind, rfl, rfl, rfl⟩ := h
  rw [placeAt_byteLength, after_eq_countedPlace]

lemma narrow_eq_iff : p.narrow = p ↔ p.Fits := by
  have hpos : 0 < Word.bound32 := Nat.succ_pos _
  refine ⟨fun h => ?_, Position.Fits.narrow_eq⟩
  rw [← h]
  exact ⟨Nat.mod_lt _ hpos, Nat.mod_lt _ hpos⟩

/-- The place is told by the counts themselves exactly if they fit. -/
lemma CountsTo.placeAt_iff (h : CountsTo text o p) : Text.placeAt text o = .ok p ↔ p.Fits := by
  rw [h.placeAt, Except.ok.injEq, narrow_eq_iff]

lemma precedes_of_lt (h : CountsTo text o p) (h' : CountsTo text o' p') (hlt : o < o') :
    Precedes p p' := by
  obtain ⟨before, behind, rfl, rfl, rfl⟩ := h
  obtain ⟨before', behind', heq, rfl, rfl⟩ := h'
  obtain ⟨between, rfl⟩ := prefix_of_byteLength_le ⟨behind, rfl⟩ ⟨behind', heq.symm⟩ hlt.le
  have hne : between ≠ [] := by
    rintro rfl
    rw [List.append_nil] at hlt
    exact lt_irrefl _ hlt
  rw [← after_eq_countedPlace, ← after_eq_countedPlace]
  exact precedes_after hne

lemma eq_of_placeAt_eq (h : CountsTo text o p) (h' : CountsTo text o' p') (hfit : p.Fits)
    (hfit' : p'.Fits) (heq : Text.placeAt text o = Text.placeAt text o') : o = o' := by
  rw [h.placeAt_iff.mpr hfit, h'.placeAt_iff.mpr hfit'] at heq
  obtain rfl := Except.ok.inj heq
  rcases Nat.lt_trichotomy o o' with hlt | rfl | hgt
  · exact absurd rfl (precedes_of_lt h h' hlt).ne
  · rfl
  · exact absurd rfl (precedes_of_lt h' h hgt).ne

/-- All counts fit exactly if neither the lines nor the characters of one are too many. -/
lemma forall_fits_iff_pieces : (∀ o p, CountsTo text o p → p.Fits) ↔
    (pieces text).length < Word.bound32 ∧ ∀ l ∈ pieces text, l.length + 1 < Word.bound32 := by
  rw [← placesFit_iff]
  constructor
  · intro h i
    refine h _ _ ⟨text.take i, text.drop i, (List.take_append_drop i text).symm, rfl, ?_⟩
    exact (after_eq_countedPlace _).symm
  · rintro h o p ⟨before, behind, rfl, rfl, rfl⟩
    have hplace := h before.length
    rwa [Position.ofIndex, List.take_left, after_eq_countedPlace] at hplace

end Counts

/-! ### Places in numbered lines -/

section Lines

variable {text lead line tail : List Char} {n b : ℕ}

/-- An offset that cuts a text between two characters, or at one of its ends. -/
def IsBoundary (text : List Char) (o : ℕ) : Prop :=
  ∃ before behind, text = before ++ behind ∧ byteLength before = o

lemma lineStarts_of_isLineAt (h : IsLineAt text n lead line tail) :
    (lineStarts text)[n - 1]? = some (byteLength lead) := by
  have hplace := h.place
  rw [after_eq_countedPlace, countedPlace, Position.mk.injEq] at hplace
  obtain ⟨rfl, -⟩ := hplace
  rw [Nat.add_sub_cancel_left, h.split]
  rcases h.starts with rfl | hlast
  · rfl
  · obtain ⟨front, rfl⟩ := List.getLast?_eq_some_iff.mp hlast
    have hstart := lineStartsFrom_getElem? front (line ++ tail) 0
    rw [List.count_append, List.count_singleton_self, List.append_assoc, lineStarts,
      List.getElem?_cons_succ]
    rw [byteLength_append]
    rw [Nat.zero_add] at hstart
    exact hstart

lemma placeAt_line (h : IsLineAt text n lead line tail) (hb : IsBoundary line b) :
    placeAt text (byteLength lead + b) = .ok ⟨n % Word.bound32, columnAt line b⟩ := by
  obtain ⟨front, back, rfl, rfl⟩ := hb
  have hcolumn := columnAt_take (front ++ back) front.length
  rw [List.take_left, Word.ordinal32_eq] at hcolumn
  have hsplit : text = (lead ++ front) ++ (back ++ tail) := by
    rw [h.split, List.append_assoc, List.append_assoc]
  have hplace := h.ofIndex (j := front.length) (by simp)
  rw [Position.ofIndex, hsplit, ← List.length_append, List.take_left] at hplace
  calc placeAt text (byteLength lead + byteLength front)
    _ = placeAt ((lead ++ front) ++ (back ++ tail)) (byteLength (lead ++ front)) := by
        rw [← hsplit, byteLength_append]
    _ = .ok (Position.after (lead ++ front)).narrow := placeAt_byteLength _ _
    _ = .ok ⟨n % Word.bound32, columnAt (front ++ back) (byteLength front)⟩ := by
        rw [hplace, hcolumn, Position.narrow]

end Lines

/-- **Both ways to a place come to the counts.** The search for the line has one answer, however it
is done. Between any two characters of a text the place that is found is what fits 32 bits of two
counts, each from one: that of the line feeds before, and that of the characters behind the last of
them. So it is the counts themselves exactly if they fit, and where they fit, places further on are
later and no two are the same; they all fit exactly if neither the lines nor the characters of one
are too many. And each line that is numbered stands in the text at the start that the index of the
lines has for it, and its number and the column in it are the place in the text. -/
theorem places_by_counts (text : List Char) :
    (∀ offset answer, IsAnswer (lineStarts text) offset answer ↔
      answer = search (lineStarts text) offset) ∧
    (∀ o p, CountsTo text o p →
      placeAt text o = .ok p.narrow ∧ (placeAt text o = .ok p ↔ p.Fits)) ∧
    (∀ o o' p p', CountsTo text o p → CountsTo text o' p' → p.Fits → p'.Fits →
      (o < o' → ∃ q q', placeAt text o = .ok q ∧ placeAt text o' = .ok q' ∧ Precedes q q') ∧
      (placeAt text o = placeAt text o' → o = o')) ∧
    ((∀ o p, CountsTo text o p → p.Fits) ↔
      (pieces text).length < Word.bound32 ∧
        ∀ l ∈ pieces text, l.length + 1 < Word.bound32) ∧
    ∀ i n line, (numberedLines text)[i]? = some (n, line) →
      ∃ lead tail, IsLineAt text (i + 1) lead line tail ∧
        (lineStarts text)[i]? = some (byteLength lead) ∧
        ∀ b, IsBoundary line b →
          placeAt text (byteLength lead + b) = .ok ⟨n, columnAt line b⟩ := by
  refine ⟨fun _ _ => isAnswer_iff (pairwise_lineStarts text), fun o p h => ?_,
    fun o o' p p' h h' hfit hfit' => ?_, forall_fits_iff_pieces, fun i n line hget => ?_⟩
  · exact ⟨h.placeAt, h.placeAt_iff⟩
  · exact ⟨fun hlt => ⟨p, p', h.placeAt_iff.mpr hfit, h'.placeAt_iff.mpr hfit',
      precedes_of_lt h h' hlt⟩, eq_of_placeAt_eq h h' hfit hfit'⟩
  · obtain ⟨rfl, hmem⟩ := mem_countedLines_of_getElem? hget
    obtain ⟨lead, tail, hat⟩ := exists_isLineAt hmem
    exact ⟨lead, tail, hat, lineStarts_of_isLineAt hat, fun _ hb => placeAt_line hat hb⟩

/-- A line feed ends the line it stands in, and a carriage return before it is still in the line. -/
example : [1, 2, 3, 4].map (placeAt "a\r\né".toList) =
    [.ok ⟨1, 2⟩, .ok ⟨1, 3⟩, .ok ⟨2, 1⟩, .ok ⟨2, 2⟩] := by decide

theorem places_by_counts_short :
    CountsTo "a\r\né".toList 1 ⟨1, 2⟩ ∧ CountsTo "a\r\né".toList 3 ⟨2, 1⟩ ∧
    Position.Fits ⟨1, 2⟩ ∧ Position.Fits ⟨2, 1⟩ ∧
    ∃ q q', placeAt "a\r\né".toList 1 = .ok q ∧ placeAt "a\r\né".toList 3 = .ok q' ∧
      Precedes q q' := by
  have hfirst : CountsTo "a\r\né".toList 1 ⟨1, 2⟩ := ⟨['a'], "\r\né".toList, rfl, rfl, rfl⟩
  have hsecond : CountsTo "a\r\né".toList 3 ⟨2, 1⟩ := ⟨"a\r\n".toList, ['é'], rfl, rfl, rfl⟩
  have hfit : Position.Fits ⟨1, 2⟩ := by decide
  have hfit' : Position.Fits ⟨2, 1⟩ := by decide
  obtain ⟨-, -, hplaces, -⟩ := places_by_counts "a\r\né".toList
  exact ⟨hfirst, hsecond, hfit, hfit',
    (hplaces 1 3 _ _ hfirst hsecond hfit hfit').1 (by decide)⟩

/-! ### A text with too many lines -/

lemma countsTo_lineFeeds {m n : ℕ} (h : m ≤ n) :
    CountsTo (List.replicate n '\n') m ⟨1 + m, 1⟩ := by
  have hbytes (k : ℕ) : byteLength (List.replicate k '\n') = k := by
    induction k with
    | zero => rfl
    | succ k ih =>
      rw [List.replicate_succ, byteLength_cons, ih, Nat.add_comm]
      rfl
  have hlast (k : ℕ) : (List.replicate k '\n').rtakeWhile (· != '\n') = [] := by
    cases k with
    | zero => rfl
    | succ k =>
      rw [List.replicate_succ', List.rtakeWhile_concat]
      rfl
  refine ⟨List.replicate m '\n', List.replicate (n - m) '\n', ?_, hbytes m, ?_⟩
  · rw [List.replicate_append_replicate, Nat.add_sub_cancel' h]
  · rw [countedPlace, List.count_replicate_self, hlast, List.length_nil]

/-- Line feeds, as many as there are words of 32 bits. -/
def manyLineFeeds : List Char := List.replicate Word.bound32 '\n'

/-- The end of so many line feeds is told as their start: the counts differ, and the places do
not. -/
theorem placeAt_manyLineFeeds :
    CountsTo manyLineFeeds 0 ⟨1, 1⟩ ∧ CountsTo manyLineFeeds Word.bound32 ⟨1 + Word.bound32, 1⟩ ∧
    placeAt manyLineFeeds 0 = .ok ⟨1, 1⟩ ∧ placeAt manyLineFeeds Word.bound32 = .ok ⟨1, 1⟩ := by
  have hstart : CountsTo manyLineFeeds 0 ⟨1, 1⟩ := countsTo_lineFeeds (Nat.zero_le _)
  have hend : CountsTo manyLineFeeds Word.bound32 ⟨1 + Word.bound32, 1⟩ :=
    countsTo_lineFeeds le_rfl
  exact ⟨hstart, hend, hstart.placeAt, hend.placeAt⟩

end CodeHealth.Proofs.PlaceCounts
