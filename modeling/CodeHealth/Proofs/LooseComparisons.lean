import CodeHealth.Check.LooseEquality
import CodeHealth.Proofs.Completion
import CodeHealth.Proofs.LineHits
import CodeHealth.Proofs.Recognition
import CodeHealth.Proofs.TextLines
import CodeHealth.Proofs.Utf8Bytes
import Mathlib.Data.List.Sort

/-!
The places of loose comparisons.

The search goes over the bytes of a line and passes an operator as a whole. No byte of a character
that is not ASCII looks like one of an operator, and the second character of an operator joins what
would start there, so nothing is passed over: the operators that are found are those that stand
among the characters. An operator is told unless it compares with the word `null` and such
comparisons are allowed.
-/

namespace CodeHealth.Proofs.LooseComparisons

open CodeHealth.Check CodeHealth.Text CodeHealth.Proofs.Completion CodeHealth.Proofs.LineHits
open CodeHealth.Proofs.Recognition CodeHealth.Proofs.TextLines CodeHealth.Proofs.Utf8Bytes

/-! ### Places in a line -/

/-- Whether a character before `==` or `!=` makes it part of another operator. -/
def joins (c : Char) : Bool := c == '=' || c == '!' || c == '<' || c == '>'

/-- Whether a loose operator stands at an index of a line: `==` or `!=`, with nothing that joins it
right before it and no equals sign right behind it. -/
def isLoose (l : List Char) (i : ℕ) : Bool :=
  (l[i]? == some '=' || l[i]? == some '!') && l[i + 1]? == some '=' &&
    (i == 0 || !l[i - 1]?.any joins) && l[i + 2]? != some '='

/-- A text starts with the whole word `null`. -/
def StartsWithNull (cs : List Char) : Prop :=
  nullWord <+: cs ∧ (cs.drop nullWord.length).head?.any isNameChar = false

/-- A text ends with the whole word `null`. -/
def EndsWithNull (cs : List Char) : Prop :=
  nullWord <:+ cs ∧ (cs.take (cs.length - nullWord.length)).getLast?.any isNameChar = false

/-- The operator at an index of a line has the word `null` on one of its sides, perhaps behind
blanks. -/
def ComparesNull (l : List Char) (i : ℕ) : Prop :=
  StartsWithNull (skipBlanks (l.drop (i + 2))) ∨ EndsWithNull (trimRight (l.take i))

instance (cs : List Char) : Decidable (StartsWithNull cs) := inferInstanceAs (Decidable (_ ∧ _))

instance (cs : List Char) : Decidable (EndsWithNull cs) := inferInstanceAs (Decidable (_ ∧ _))

instance (l : List Char) (i : ℕ) : Decidable (ComparesNull l i) :=
  inferInstanceAs (Decidable (_ ∨ _))

/-! ### The search among bytes -/

/-- Whether a loose operator stands at an index of bytes. -/
def isLooseByte (bs : List UInt8) (i : ℕ) : Bool :=
  (bs[i]? == some '='.toUInt8 || bs[i]? == some '!'.toUInt8) && bs[i + 1]? == some '='.toUInt8 &&
    (i == 0 || !bs[i - 1]?.any joinsOperator) && bs[i + 2]? != some '='.toUInt8

section Bytes

variable {bs : List UInt8} {i : ℕ}

lemma readAt_of_lt (h : i < bs.length) : readAt bs i = .ok bs[i] := by
  rw [readAt, List.getElem?_eq_getElem h]

lemma isFreeAt_eq (h : i < bs.length) :
    isFreeAt bs i = .ok (i == 0 || !bs[i - 1]?.any joinsOperator) := by
  cases i with
  | zero => rfl
  | succ i =>
    have hi : i < bs.length := by omega
    rw [isFreeAt, if_neg (Nat.succ_ne_zero i), minus_of_le (Nat.le_add_left 1 i),
      Nat.add_sub_cancel, List.getElem?_eq_getElem hi]
    change (_ <$> readAt bs i) = _
    rw [readAt_of_lt hi]
    rfl

lemma isLooseAt_eq (h : i + 1 < bs.length) : isLooseAt bs i = .ok (isLooseByte bs i) := by
  have hi : i < bs.length := by omega
  rw [isLooseAt, readAt_of_lt hi, readAt_of_lt h, isFreeAt_eq hi, isLooseByte,
    List.getElem?_eq_getElem hi, List.getElem?_eq_getElem h]
  rfl

lemma isLooseByte_of_end (h : bs.length ≤ i + 1) : isLooseByte bs i = false := by
  simp [isLooseByte, List.getElem?_eq_none h]

lemma isLooseByte_succ (h : isLooseByte bs i = true) : isLooseByte bs (i + 1) = false := by
  simp only [isLooseByte, Bool.and_eq_true, Bool.or_eq_true, beq_iff_eq] at h
  obtain ⟨⟨⟨hfirst, -⟩, -⟩, -⟩ := h
  rcases hfirst with hfirst | hfirst <;> simp [isLooseByte, hfirst, joinsOperator]

lemma looseFrom_eq (bs : List UInt8) (steps i : ℕ) (h : bs.length ≤ i + steps) :
    looseFrom bs steps i = .ok ((List.range' i (bs.length - i)).filter (isLooseByte bs)) := by
  -- behind an operator the scan goes on two bytes further
  induction steps using Nat.strong_induction_on generalizing i with
  | _ steps ih =>
    cases steps with
    | zero =>
      have hnone : bs.length - i = 0 := by omega
      rw [hnone]
      rfl
    | succ steps =>
      rw [looseFrom]
      split
      · rename_i hlt
        obtain ⟨n, hn⟩ : ∃ n, bs.length - i = n + 2 := ⟨bs.length - i - 2, by omega⟩
        rw [isLooseAt_eq hlt, hn, List.range'_succ, List.filter_cons]
        by_cases hloose : isLooseByte bs i = true
        · have hmore := ih steps (by omega) (i + 2) (by omega)
          rw [show bs.length - (i + 2) = n by omega] at hmore
          rw [if_pos hloose, List.range'_succ,
            List.filter_cons_of_neg (by simp [isLooseByte_succ hloose]), hloose]
          change (looseFrom bs steps (i + 2) >>= _) = _
          rw [hmore]
          rfl
        · have hmore := ih steps (by omega) (i + 1) (by omega)
          rw [show bs.length - (i + 1) = n + 1 by omega] at hmore
          rw [if_neg hloose, Bool.eq_false_iff.mpr hloose]
          exact hmore
      · rename_i hend
        -- no two bytes are left
        refine congrArg Except.ok (List.filter_eq_nil_iff.mpr fun j hj => ?_).symm
        have hj' := List.mem_range'_1.mp hj
        simp [isLooseByte_of_end (show bs.length ≤ j + 1 by omega)]

end Bytes

/-! ### Bytes and characters -/

section Characters

variable {l : List Char} {i : ℕ}

lemma joinsOperator_eq {b : UInt8} {c : Char} (h : StandsFor b c) : joinsOperator b = joins c := by
  rw [joinsOperator, joins, h.beq_eq (by decide), h.beq_eq (by decide), h.beq_eq (by decide),
    h.beq_eq (by decide)]

/-- The byte at the offset of a character is an ASCII character exactly if the character is. -/
lemma byteAt_beq (l : List Char) (i : ℕ) {d : Char} (hd : IsAscii d) :
    ((bytes l)[offsetAt l i]? == some d.toUInt8) = (l[i]? == some d) := by
  cases hc : l[i]? with
  | none =>
    have hle : l.length ≤ i := List.getElem?_eq_none_iff.mp hc
    rw [offsetAt_of_le hle, List.getElem?_eq_none (length_bytes l).le]
    rfl
  | some c =>
    obtain ⟨b, hb, hstands⟩ := exists_byte hc c.utf8Size_pos
    rw [Nat.add_zero] at hb
    rw [hb, Option.some_beq_some, Option.some_beq_some, hstands.beq_eq hd]

/-- The byte before the offset of a character is the last one of the character before. -/
lemma byteBefore_any (hi : i < l.length) :
    (offsetAt l i == 0 || !(bytes l)[offsetAt l i - 1]?.any joinsOperator) =
      (i == 0 || !l[i - 1]?.any joins) := by
  cases i with
  | zero => rfl
  | succ i =>
    have hc : l[i]? = some l[i] := List.getElem?_eq_getElem (by omega)
    have hpos := (l[i]).utf8Size_pos
    have hnext := offsetAt_succ hc
    obtain ⟨b, hb, hstands⟩ := exists_byte hc (k := (l[i]).utf8Size - 1) (by omega)
    rw [← Nat.add_sub_assoc hpos, ← hnext] at hb
    have hzero : (offsetAt l (i + 1) == 0) = false := by
      rw [beq_eq_false_iff_ne]
      omega
    rw [hzero, hb, Nat.add_sub_cancel, hc, Option.any_some, Option.any_some,
      joinsOperator_eq hstands]
    rfl

/-- Behind an ASCII character the next one starts with the next byte. -/
lemma offsetAt_succ_of_isAscii {d : Char} (hd : IsAscii d) (h : l[i]? = some d) :
    offsetAt l (i + 1) = offsetAt l i + 1 := by
  rw [offsetAt_succ h, utf8Size_of_isAscii hd]

lemma isLooseByte_offsetAt (hi : i < l.length) :
    isLooseByte (bytes l) (offsetAt l i) = isLoose l i := by
  have hbefore := byteBefore_any hi
  have hfirst : ((bytes l)[offsetAt l i]? == some '='.toUInt8 ||
      (bytes l)[offsetAt l i]? == some '!'.toUInt8) = (l[i]? == some '=' || l[i]? == some '!') := by
    rw [byteAt_beq l i (by decide), byteAt_beq l i (by decide)]
  rw [isLooseByte, isLoose, hbefore, hfirst]
  cases hop : (l[i]? == some '=' || l[i]? == some '!') with
  | false => rfl
  | true =>
    have hnext : offsetAt l (i + 1) = offsetAt l i + 1 := by
      rcases (Bool.or_eq_true _ _).mp hop with h | h
      · exact offsetAt_succ_of_isAscii (by decide) (beq_iff_eq.mp h)
      · exact offsetAt_succ_of_isAscii (by decide) (beq_iff_eq.mp h)
    rw [← hnext, byteAt_beq l (i + 1) (by decide)]
    cases hsecond : (l[i + 1]? == some '=') with
    | false => rfl
    | true =>
      have hthird := offsetAt_succ_of_isAscii (by decide) (beq_iff_eq.mp hsecond)
      rw [show offsetAt l i + 2 = offsetAt l (i + 1 + 1) by omega, bne, bne,
        byteAt_beq l (i + 1 + 1) (by decide)]

lemma exists_of_isLooseByte {k : ℕ} (h : isLooseByte (bytes l) k = true) :
    ∃ i < l.length, offsetAt l i = k := by
  have hfirst : ∃ b, (bytes l)[k]? = some b ∧ IsLow b := by
    simp only [isLooseByte, Bool.and_eq_true, Bool.or_eq_true, beq_iff_eq] at h
    rcases h.1.1.1 with h | h
    · exact ⟨_, h, by decide⟩
    · exact ⟨_, h, by decide⟩
  obtain ⟨b, hb, hlow⟩ := hfirst
  obtain ⟨lead, c, rest, rfl, rfl, -, -⟩ := exists_of_getElem?_bytes hb hlow
  exact ⟨lead.length, by simp, offsetAt_length lead _⟩

end Characters

/-- **The search finds the operators that stand among the characters.** -/
lemma looseOperators_eq (l : List Char) :
    looseOperators l = .ok (((List.range l.length).filter (isLoose l)).map (offsetAt l)) := by
  rw [looseOperators, looseFrom_eq _ _ _ (by omega), Nat.sub_zero, ← List.range_eq_range']
  congr 1
  have hbytes : ((List.range (bytes l).length).filter (isLooseByte (bytes l))).Pairwise (· < ·) :=
    List.pairwise_lt_range.filter _
  have hchars : (((List.range l.length).filter (isLoose l)).map (offsetAt l)).Pairwise (· < ·) := by
    rw [List.pairwise_map]
    refine (List.pairwise_lt_range.filter _).imp_of_mem fun _ hj hij => offsetAt_lt hij ?_
    have hj' := List.mem_range.mp (List.mem_of_mem_filter hj)
    omega
  apply hbytes.eq_of_mem_iff hchars
  intro k
  simp only [List.mem_filter, List.mem_range, List.mem_map]
  constructor
  · rintro ⟨-, hk⟩
    obtain ⟨i, hi, rfl⟩ := exists_of_isLooseByte hk
    exact ⟨i, ⟨hi, by rwa [← isLooseByte_offsetAt hi]⟩, rfl⟩
  · rintro ⟨i, ⟨hi, hloose⟩, rfl⟩
    have hlt := offsetAt_lt hi le_rfl
    rw [offsetAt_of_le le_rfl, ← length_bytes] at hlt
    exact ⟨hlt, by rwa [isLooseByte_offsetAt hi]⟩

/-! ### The word `null` -/

lemma startsWithNull_eq (cs : List Char) : startsWithNull cs = decide (StartsWithNull cs) := by
  unfold startsWithNull afterWord? StartsWithNull
  by_cases h : nullWord <+: cs
  · simp [h]
  · simp [h]

lemma endsWithNull_eq (cs : List Char) : endsWithNull cs = .ok (decide (EndsWithNull cs)) := by
  unfold endsWithNull EndsWithNull
  by_cases h : nullWord <:+ cs
  · obtain ⟨before, rfl⟩ := h
    have hminus : minus (byteLength (before ++ nullWord)) (byteLength nullWord) =
        .ok (byteLength before) := by
      rw [minus_of_le (by simp), byteLength_append, Nat.add_sub_cancel]
    rw [if_pos (List.isSuffixOf_iff_suffix.mpr (List.suffix_append before nullWord)), hminus]
    change (sliceTo (byteLength before) (before ++ nullWord) >>= _) = _
    rw [sliceTo_append]
    change Except.ok _ = _
    simp
  · rw [if_neg (fun hs => h (List.isSuffixOf_iff_suffix.mp hs))]
    simp [h]
    rfl

/-! ### Hits -/

section Hits

variable {l : List Char} {i : ℕ}

lemma exists_of_isLoose (h : isLoose l i = true) :
    ∃ lead c tail, l = lead ++ ([c, '='] ++ tail) ∧ lead.length = i ∧ (c = '=' ∨ c = '!') := by
  simp only [isLoose, Bool.and_eq_true, Bool.or_eq_true, beq_iff_eq] at h
  obtain ⟨⟨⟨hfirst, hsecond⟩, -⟩, -⟩ := h
  have hi : i < l.length := by
    by_contra! hle
    simp [List.getElem?_eq_none hle] at hfirst
  obtain ⟨hi', hsecond⟩ := List.getElem?_eq_some_iff.mp hsecond
  refine ⟨l.take i, l[i], l.drop (i + 2), ?_, by simp; omega, ?_⟩
  · rw [← hsecond]
    simp
  · simpa [List.getElem?_eq_getElem hi] using hfirst

/-- What is told about the operator at an index of a line. -/
def comparisonAdvice (l : List Char) (i : ℕ) : String × String :=
  if l[i]? = some '=' then
    ("Use '===' instead of '=='", "Replace '==' with '===' to avoid type coercion")
  else ("Use '!==' instead of '!='", "Replace '!=' with '!==' to avoid type coercion")

/-- The two sides of an operator can be cut out: `null` stands behind the operator, or at the end of
the text before it. -/
lemma comparesNull_eq {lead tail : List Char} {c : Char} (hsize : byteLength [c, '='] = 2) :
    comparesNull (lead ++ ([c, '='] ++ tail)) (byteLength lead) =
      .ok (decide (ComparesNull (lead ++ ([c, '='] ++ tail)) lead.length)) := by
  have hright : sliceFrom (byteLength lead + 2) (lead ++ ([c, '='] ++ tail)) = .ok tail := by
    have hcut := sliceFrom_append (lead ++ [c, '=']) tail
    rwa [byteLength_append, hsize, List.append_assoc] at hcut
  rw [comparesNull, hright, sliceTo_append]
  change (if startsWithNull (skipBlanks tail) then .ok true else endsWithNull (trimRight lead)) = _
  rw [startsWithNull_eq, endsWithNull_eq]
  by_cases hstarts : StartsWithNull (skipBlanks tail) <;> simp [ComparesNull, hstarts]

/-- An operator in its line gives its hit, unless it compares with `null` and that is allowed. -/
lemma looseHit?_eq (h : isLoose l i = true) (allowNull : Bool) (n : ℕ) :
    looseHit? allowNull n l (offsetAt l i) =
      .ok (if !(allowNull && decide (ComparesNull l i)) then
        some (.at ⟨n, columnAt l (offsetAt l i)⟩ (comparisonAdvice l i).1 (comparisonAdvice l i).2)
        else none) := by
  obtain ⟨lead, c, tail, rfl, rfl, hc⟩ := exists_of_isLoose h
  have hsize : byteLength [c, '='] = 2 := by rcases hc with rfl | rfl <;> rfl
  have hop : slice (byteLength lead) (byteLength lead + 2) (lead ++ ([c, '='] ++ tail)) =
      .ok [c, '='] := by
    have hcut := slice_append lead [c, '='] tail
    rwa [hsize] at hcut
  have hidiom : (if allowNull then comparesNull (lead ++ ([c, '='] ++ tail)) (byteLength lead)
      else pure false) =
      .ok (allowNull && decide (ComparesNull (lead ++ ([c, '='] ++ tail)) lead.length)) := by
    cases allowNull with
    | false => rfl
    | true => exact comparesNull_eq hsize
  rw [offsetAt_length, looseHit?, hidiom]
  cases allowNull && decide (ComparesNull (lead ++ ([c, '='] ++ tail)) lead.length) with
  | true => rfl
  | false =>
    change (slice _ _ _ >>= _) = _
    rw [hop]
    rcases hc with rfl | rfl
    · simp [comparisonAdvice]
    · simp [comparisonAdvice]

end Hits

/-- Whether a loose operator stands at an index of a line that does not compare with `null`. -/
def isLooseButNull (l : List Char) (i : ℕ) : Bool := isLoose l i && !decide (ComparesNull l i)

def isTold (allowNull : Bool) : List Char → ℕ → Bool :=
  if allowNull then isLooseButNull else isLoose

lemma isTold_eq (allowNull : Bool) (l : List Char) :
    (fun i => isLoose l i && !(allowNull && decide (ComparesNull l i))) = isTold allowNull l := by
  ext i
  cases allowNull with
  | false => exact Bool.and_true _
  | true => rfl

lemma filterMap_looseHit (allowNull : Bool) (n : ℕ) (l : List Char) :
    (looseOperators l >>= fun js => js.filterMapM (looseHit? allowNull n l)) =
      .ok (toldIn (isTold allowNull) comparisonAdvice n l) := by
  rw [looseOperators_eq]
  change (((List.range l.length).filter (isLoose l)).map (offsetAt l)).filterMapM _ = _
  rw [filterMapM_map_eq fun i hi => looseHit?_eq (List.of_mem_filter hi) allowNull n,
    filterMap_ite, List.filter_filter]
  simp only [Bool.and_comm _ (isLoose l _), isTold_eq]
  rfl

lemma check_eq (src : Source) :
    looseEquality.check src =
      .hits ((lineHits (isTold (src.options.boolOr "allow_null" true)) comparisonAdvice
        src.masked).map Hit.narrow) := by
  have hlines := flatMapM_eq
    fun (numbered : ℕ × List Char) (_ : numbered ∈ numberedLines src.masked) =>
      filterMap_looseHit (src.options.boolOr "allow_null" true) numbered.1 numbered.2
  rw [← flatMap_toldIn]
  exact congrArg Outcome.ofChecked hlines

/-- **Loose comparisons are found exactly.** Told are the loose operators of each line from left to
right, each once, at its own column and by its own name; if comparisons with the word `null` are
allowed, which the options decide and which they are by default, told are the others of them. Of each
place is told what fits 32 bits, and that is all of it if the places of the text fit. -/
theorem check_comparisons (src : Source) :
    looseEquality.check src =
      .hits ((if src.options.boolOr "allow_null" true
        then lineHits isLooseButNull comparisonAdvice src.masked
        else lineHits isLoose comparisonAdvice src.masked).map Hit.narrow) ∧
    (lineHits isLooseButNull comparisonAdvice src.masked).Sublist
      (lineHits isLoose comparisonAdvice src.masked) ∧
    (lineHits isLoose comparisonAdvice src.masked).Pairwise Before ∧
    (PlacesFit src.masked → looseEquality.check src =
      .hits (if src.options.boolOr "allow_null" true
        then lineHits isLooseButNull comparisonAdvice src.masked
        else lineHits isLoose comparisonAdvice src.masked)) := by
  have hchoice : lineHits (isTold (src.options.boolOr "allow_null" true)) comparisonAdvice
      src.masked = if src.options.boolOr "allow_null" true
        then lineHits isLooseButNull comparisonAdvice src.masked
        else lineHits isLoose comparisonAdvice src.masked := by
    rw [isTold]
    split <;> rfl
  refine ⟨by rw [check_eq, hchoice], lineHits_sublist (fun l i h => ?_) _, pairwise_lineHits _,
    fun hfit => by rw [check_eq, map_narrow_lineHits hfit, hchoice]⟩
  exact (Bool.and_eq_true_iff.mp h).1

/-- Operators in a run of marks, and the word `null` behind other letters and behind blanks. -/
example :
    let l := "a == b != null, nonnull != c !== d >= e, null  == f".toList
    (List.range l.length).filter (isLoose l) = [2, 7, 24, 47] ∧
    (List.range l.length).filter (isLooseButNull l) = [2, 24] := by
  decide +kernel

end CodeHealth.Proofs.LooseComparisons
