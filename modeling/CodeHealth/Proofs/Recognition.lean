import CodeHealth.Text.Occurrence
import Mathlib.Data.List.Infix

/-!
What recognisers read.

What is left behind a reading is an end of the text that was read, and what occurs in a text was
read between two of its characters.
-/

namespace CodeHealth.Proofs.Recognition

open CodeHealth.Text

/-! ### Readings -/

lemma afterWord?_eq_some {word rest left : List Char} :
    afterWord? word rest = some left ↔ rest = word ++ left := by
  unfold afterWord?
  dsimp only
  split_ifs with h
  · obtain ⟨tail, rfl⟩ := List.isPrefixOf_iff_prefix.mp h
    simp [eq_comm]
  · refine ⟨nofun, ?_⟩
    rintro rfl
    exact absurd (List.isPrefixOf_iff_prefix.mpr (List.prefix_append word left)) h

lemma afterWord?_suffix {word rest left : List Char} (h : afterWord? word rest = some left) :
    left <:+ rest := ⟨word, (afterWord?_eq_some.mp h).symm⟩

lemma skipBlanks_suffix (rest : List Char) : skipBlanks rest <:+ rest :=
  List.dropWhile_suffix isBlank

lemma afterBlanks?_suffix {rest left : List Char} (h : afterBlanks? rest = some left) :
    left <:+ rest := by
  cases rest with
  | nil => cases h
  | cons c cs =>
    rw [afterBlanks?] at h
    split_ifs at h
    cases h
    exact (skipBlanks_suffix cs).trans (List.suffix_cons c cs)

lemma afterMark?_suffix {mark : Char} {rest left : List Char}
    (h : afterMark? mark rest = some left) : mark :: left <:+ rest := by
  have hblanks := skipBlanks_suffix rest
  rw [afterMark?] at h
  split at h
  · rename_i c cs heq
    split_ifs at h with hc
    cases h
    rwa [heq, hc] at hblanks
  · cases h

lemma afterWordAndMark_suffix {word : List Char} {mark : Char} {rest left : List Char}
    (h : (afterWord? word rest).bind (afterMark? mark) = some left) : mark :: left <:+ rest := by
  obtain ⟨behind, hword, hmark⟩ := Option.bind_eq_some_iff.mp h
  exact (afterMark?_suffix hmark).trans (afterWord?_suffix hword)

lemma afterWordAndBlanks_suffix {word rest left : List Char}
    (h : (afterWord? word rest).bind afterBlanks? = some left) : left <:+ rest := by
  obtain ⟨behind, hword, hblanks⟩ := Option.bind_eq_some_iff.mp h
  exact (afterBlanks?_suffix hblanks).trans (afterWord?_suffix hword)

lemma suffix_of_notMem {c : Char} {s cs rest : List Char} (hs : c ∉ s) (h : c :: cs <:+ s ++ rest) :
    c :: cs <:+ rest := by
  obtain ⟨before, hbefore⟩ := h
  rcases List.append_eq_append_iff.mp hbefore with ⟨x, hx, hb⟩ | ⟨x, -, hb⟩
  · cases x with
    | nil => exact ⟨[], hb⟩
    | cons d x =>
      obtain rfl : c = d := (List.cons.inj hb).1
      exact absurd (by rw [hx]; exact List.mem_append_right _ List.mem_cons_self) hs
  · exact ⟨x, hb.symm⟩

lemma spanWord_suffix (rest : List Char) : (spanWord rest).2 <:+ rest := by
  rw [spanWord, List.span_eq_takeWhile_dropWhile]
  exact List.dropWhile_suffix isWordChar

/-! ### Words -/

/-- One of some words stands in a text as a whole word. -/
def HoldsWord (words : List (List Char)) (text : List Char) : Prop :=
  ∃ lead word tail, text = lead ++ (word ++ tail) ∧ word ∈ words ∧
    lead.getLast?.any isWordChar = false ∧ tail.head?.any isWordChar = false

lemma spanWord_append {word tail : List Char} (hword : word.all isWordChar = true)
    (htail : tail.head?.any isWordChar = false) : spanWord (word ++ tail) = (word, tail) := by
  have hstop : tail.takeWhile isWordChar = [] ∧ tail.dropWhile isWordChar = tail := by
    cases tail with
    | nil => exact ⟨rfl, rfl⟩
    | cons c tail =>
      have hc : ¬ isWordChar c = true := by simpa using htail
      exact ⟨List.takeWhile_cons_of_neg hc, List.dropWhile_cons_of_neg hc⟩
  rw [spanWord, List.span_eq_takeWhile_dropWhile, List.takeWhile_append_of_pos,
    List.dropWhile_append_of_pos, hstop.1, hstop.2, List.append_nil]
  · exact List.all_eq_true.mp hword
  · exact List.all_eq_true.mp hword

lemma spanWord_parts (rest : List Char) :
    rest = (spanWord rest).1 ++ (spanWord rest).2 ∧ (spanWord rest).1.all isWordChar = true ∧
      (spanWord rest).2.head?.any isWordChar = false := by
  rw [spanWord, List.span_eq_takeWhile_dropWhile]
  refine ⟨List.takeWhile_append_dropWhile.symm, List.all_takeWhile, ?_⟩
  have hstop := List.head?_dropWhile_not isWordChar rest
  cases hhead : (rest.dropWhile isWordChar).head? with
  | none => rfl
  | some c => simpa [hhead] using hstop

lemma hasWordAfter_iff {words : List (List Char)}
    (hwords : ∀ w ∈ words, w ≠ [] ∧ w.all isWordChar = true) (lead rest : List Char) :
    hasWordAfter words lead.getLast? rest = true ↔
      ∃ between word tail, rest = between ++ (word ++ tail) ∧ word ∈ words ∧
        (lead ++ between).getLast?.any isWordChar = false ∧
        tail.head?.any isWordChar = false := by
  induction rest generalizing lead with
  | nil =>
    refine ⟨nofun, ?_⟩
    rintro ⟨between, word, tail, hsplit, hword, -⟩
    simp [(hwords word hword).1] at hsplit
  | cons c cs ih =>
    have hmore := ih (lead ++ [c])
    rw [List.getLast?_concat] at hmore
    rw [hasWordAfter, Bool.or_eq_true, hmore]
    simp only [Bool.and_eq_true, Bool.not_eq_true', List.contains_iff_mem, List.append_assoc,
      List.singleton_append]
    constructor
    · rintro (⟨⟨hbefore, -⟩, hword⟩ | ⟨between, word, tail, rfl, hword, hbefore, hends⟩)
      · obtain ⟨hsplit, -, hends⟩ := spanWord_parts (c :: cs)
        exact ⟨[], _, _, hsplit, hword, by rwa [List.append_nil], hends⟩
      · exact ⟨c :: between, word, tail, rfl, hword, hbefore, hends⟩
    · rintro ⟨between, word, tail, hsplit, hword, hbefore, hends⟩
      -- the word starts here or later on
      cases between with
      | nil =>
        obtain ⟨hne, hall⟩ := hwords word hword
        obtain ⟨d, word, rfl⟩ := List.exists_cons_of_ne_nil hne
        obtain ⟨rfl, -⟩ := List.cons.inj hsplit
        have hc : isWordChar c = true := List.all_eq_true.mp hall c List.mem_cons_self
        rw [List.append_nil] at hbefore
        rw [hsplit, List.nil_append, spanWord_append hall hends]
        exact .inl ⟨⟨hbefore, hc⟩, hword⟩
      | cons d between =>
        obtain ⟨rfl, rfl⟩ := List.cons.inj hsplit
        exact .inr ⟨between, word, tail, rfl, hword, hbefore, hends⟩

lemma hasWord_iff {words : List (List Char)}
    (hwords : ∀ w ∈ words, w ≠ [] ∧ w.all isWordChar = true) (text : List Char) :
    hasWord words text = true ↔ HoldsWord words text :=
  hasWordAfter_iff hwords [] text

/-! ### Blanks -/

lemma mem_of_inRanges {rs : List (ℕ × ℕ)} {n : ℕ} (h : inRanges rs n = true) :
    n ∈ rs.flatMap fun r => List.range' r.1 (r.2 + 1 - r.1) := by
  induction rs with
  | nil => cases h
  | cons r rs ih =>
    rw [inRanges] at h
    rw [List.flatMap_cons, List.mem_append]
    split_ifs at h with hlo hhi
    · left
      rw [List.mem_range'_1]
      omega
    · exact .inr (ih h)

lemma isWordChar_of_isBlank {c : Char} (h : isBlank c = true) : isWordChar c = false := by
  have hblanks : ∀ n ∈ ClassTables.whiteSpace.flatMap fun r => List.range' r.1 (r.2 + 1 - r.1),
      isWordChar (Char.ofNat n) = false := by decide +kernel
  have hc := hblanks c.toNat (mem_of_inRanges h)
  rwa [Char.ofNat_toNat] at hc

/-- Nothing but blanks stands from one index of a text up to another. -/
def Blanks (text : List Char) (i j : ℕ) : Prop := ∀ k < j, i ≤ k → text[k]?.any isBlank = true

instance (text : List Char) (i j : ℕ) : Decidable (Blanks text i j) :=
  inferInstanceAs (Decidable (∀ k < j, i ≤ k → _))

lemma skipBlanks_drop {text : List Char} {i j : ℕ} (hij : i ≤ j) (hblanks : Blanks text i j)
    (hstop : text[j]?.any isBlank = false) : skipBlanks (text.drop i) = text.drop j := by
  obtain ⟨n, rfl⟩ := Nat.exists_eq_add_of_le hij
  induction n generalizing i with
  | zero =>
    rw [Nat.add_zero] at hstop ⊢
    cases hdrop : text.drop i with
    | nil => rfl
    | cons c cs =>
      have hc : text[i]? = some c := by rw [← List.head?_drop, hdrop]; rfl
      rw [hc, Option.any_some] at hstop
      rw [skipBlanks, List.dropWhile_cons_of_neg (by simp [hstop])]
  | succ n ih =>
    have hblank := hblanks i (by omega) le_rfl
    obtain ⟨c, hc, hc'⟩ := (Option.any_eq_true _ _).mp hblank
    obtain ⟨hlt, rfl⟩ := List.getElem?_eq_some_iff.mp hc
    have hnext : i + 1 + n = i + (n + 1) := by omega
    have hmore := ih (i := i + 1) (by omega) (fun k hk hik => hblanks k (by omega) (by omega))
      (by rwa [hnext])
    rw [List.drop_eq_getElem_cons hlt, skipBlanks, List.dropWhile_cons_of_pos hc', ← hnext]
    exact hmore

lemma exists_skipBlanks (text : List Char) (i : ℕ) :
    ∃ j, i ≤ j ∧ Blanks text i j ∧ skipBlanks (text.drop i) = text.drop j := by
  obtain ⟨n, hn⟩ : ∃ n, n = text.length - i := ⟨_, rfl⟩
  induction n generalizing i with
  | zero =>
    have hnone : text[i]? = none := List.getElem?_eq_none (by omega)
    exact ⟨i, le_rfl, fun k hk hik => by omega, skipBlanks_drop le_rfl (fun k hk hik => by omega)
      (by rw [hnone]; rfl)⟩
  | succ n ih =>
    cases hblank : text[i]?.any isBlank with
    | false =>
      exact ⟨i, le_rfl, fun k hk hik => by omega,
        skipBlanks_drop le_rfl (fun k hk hik => by omega) hblank⟩
    | true =>
      obtain ⟨j, hij, hblanks, hskip⟩ := ih (i + 1) (by omega)
      have hlt : i < text.length := by omega
      rw [List.getElem?_eq_getElem hlt, Option.any_some] at hblank
      refine ⟨j, by omega, fun k hk hik => ?_, ?_⟩
      · rcases Nat.eq_or_lt_of_le hik with rfl | hik
        · rwa [List.getElem?_eq_getElem hlt, Option.any_some]
        · exact hblanks k hk hik
      · rw [← hskip, List.drop_eq_getElem_cons hlt, skipBlanks, List.dropWhile_cons_of_pos hblank]
        rfl

/-! ### Calls -/

lemma afterMark?_eq_some {mark : Char} (hmark : isBlank mark = false) {rest left : List Char} :
    afterMark? mark rest = some left ↔
      ∃ blanks, isBlankText blanks = true ∧ rest = blanks ++ mark :: left := by
  constructor
  · intro h
    rw [afterMark?] at h
    split at h
    · rename_i c cs heq
      split_ifs at h with hc
      cases h
      refine ⟨rest.takeWhile isBlank, List.all_takeWhile, ?_⟩
      rw [← hc, ← heq, skipBlanks, List.takeWhile_append_dropWhile]
    · cases h
  · rintro ⟨blanks, hblanks, rfl⟩
    rw [afterMark?, skipBlanks, List.dropWhile_append_of_pos (List.all_eq_true.mp hblanks),
      List.dropWhile_cons_of_neg (by simp [hmark])]
    exact if_pos rfl

lemma afterWordAndMark_eq_some {mark : Char} (hmark : isBlank mark = false)
    {word rest left : List Char} : (afterWord? word rest).bind (afterMark? mark) = some left ↔
      ∃ blanks, isBlankText blanks = true ∧ rest = word ++ (blanks ++ mark :: left) := by
  have hread {cs : List Char} := @afterMark?_eq_some mark hmark cs left
  simp only [Option.bind_eq_some_iff, afterWord?_eq_some, hread]
  constructor
  · rintro ⟨_, rfl, blanks, hblanks, rfl⟩
    exact ⟨blanks, hblanks, rfl⟩
  · rintro ⟨blanks, hblanks, rfl⟩
    exact ⟨_, rfl, blanks, hblanks, rfl⟩

lemma length_le_of_whole_word {before name blanks left lead tail : List Char} {c : Char}
    (heq : before ++ (name ++ (blanks ++ '(' :: left)) = lead ++ c :: tail)
    (hname : name.all isWordChar = true) (hblanks : isBlankText blanks = true)
    (hc : isWordChar c = true) (hearlier : before.length < lead.length)
    (hwhole : lead.getLast?.any isWordChar = false) :
    (lead ++ c :: tail).length ≤ lead.length + left.length := by
  obtain ⟨between, hbetween⟩ : before <+: lead :=
    List.prefix_of_prefix_length_le ⟨_, heq⟩ ⟨_, rfl⟩ hearlier.le
  have hne : between ≠ [] := by
    rintro rfl
    rw [← hbetween, List.append_nil] at hearlier
    exact lt_irrefl _ hearlier
  have hcall : name ++ (blanks ++ '(' :: left) = between ++ c :: tail := by
    rw [← hbetween, List.append_assoc] at heq
    exact List.append_cancel_left heq
  rw [← hbetween, List.getLast?_append_of_ne_nil _ hne] at hwhole
  rcases List.append_eq_append_iff.mp hcall with ⟨more, rfl, hmore⟩ | ⟨more, rfl, -⟩
  · rcases List.append_eq_append_iff.mp hmore with ⟨rest, rfl, hrest⟩ | ⟨rest, rfl, hrest⟩
    · cases rest with
      | nil =>
        -- the bracket is no part of a word
        obtain ⟨rfl, -⟩ := List.cons.inj hrest
        exact absurd hc (by decide)
      | cons d rest =>
        obtain ⟨-, rfl⟩ := List.cons.inj hrest
        simp only [List.append_eq, List.length_append, List.length_cons]
        omega
    · cases rest with
      | nil =>
        obtain ⟨rfl, -⟩ := List.cons.inj hrest
        exact absurd hc (by decide)
      | cons d rest =>
        -- a word does not start with a blank
        obtain ⟨rfl, -⟩ := List.cons.inj hrest
        have hblank : isBlank c = true := List.all_eq_true.mp hblanks c (by simp)
        rw [isWordChar_of_isBlank hblank] at hc
        cases hc
  · -- a name does not end right before a whole word
    have hlast : between.getLast hne ∈ between ++ more :=
      List.mem_append_left more (List.getLast_mem hne)
    rw [List.getLast?_eq_some_getLast hne, Option.any_some,
      List.all_eq_true.mp hname _ hlast] at hwhole
    cases hwhole

/-! ### Occurrences -/

variable {α : Type} {r : Recogniser α}

lemma exists_of_mem_occurrencesFrom (lead : List Char) {rest : List Char} {skip i : ℕ} {a : α}
    (h : (i, a) ∈ occurrencesFrom r lead.getLast? lead.length skip rest) :
    ∃ before behind left, lead ++ rest = before ++ behind ∧ before.length = i ∧
      r before.getLast? behind = some (a, left) := by
  induction rest generalizing lead skip with
  | nil => cases skip <;> cases h
  | cons c cs ih =>
    have hmore : ∀ k, (i, a) ∈ occurrencesFrom r (some c) (lead.length + 1) k cs →
        ∃ before behind left, lead ++ c :: cs = before ++ behind ∧ before.length = i ∧
          r before.getLast? behind = some (a, left) := by
      intro k hk
      rw [List.append_cons]
      have hlead : (i, a) ∈
          occurrencesFrom r (lead ++ [c]).getLast? (lead ++ [c]).length k cs := by
        rwa [List.getLast?_concat, List.length_append]
      exact ih (lead ++ [c]) hlead
    cases skip with
    | succ skip => exact hmore skip h
    | zero =>
      rw [occurrencesFrom] at h
      split at h
      · rename_i b left hread
        rcases List.mem_cons.mp h with heq | h
        · obtain ⟨rfl, rfl⟩ := Prod.mk.inj heq
          exact ⟨lead, c :: cs, left, rfl, rfl, hread⟩
        · exact hmore _ h
      · exact hmore 0 h

lemma exists_of_mem_occurrences {text : List Char} {i : ℕ} {a : α}
    (h : (i, a) ∈ occurrences r text) :
    ∃ before behind left, text = before ++ behind ∧ before.length = i ∧
      r before.getLast? behind = some (a, left) :=
  exists_of_mem_occurrencesFrom [] h

/-- An earlier reading goes no further than a place in the text. -/
def EndsBefore (r : Recogniser α) (text lead : List Char) : Prop :=
  ∀ before behind a left, text = before ++ behind → before.length < lead.length →
    r before.getLast? behind = some (a, left) → text.length ≤ lead.length + left.length

lemma mem_occurrencesFrom (text lead : List Char) {between behind left : List Char} {skip : ℕ}
    {a : α} (htext : text = lead ++ between ++ behind) (hends : EndsBefore r text (lead ++ between))
    (hskip : skip ≤ between.length) (hbehind : behind ≠ [])
    (hread : r (lead ++ between).getLast? behind = some (a, left)) :
    ((lead ++ between).length, a) ∈
      occurrencesFrom r lead.getLast? lead.length skip (between ++ behind) := by
  induction between generalizing lead skip with
  | nil =>
    obtain rfl : skip = 0 := Nat.le_zero.mp hskip
    obtain ⟨c, cs, rfl⟩ := List.exists_cons_of_ne_nil hbehind
    rw [List.append_nil] at hread ⊢
    rw [List.nil_append, occurrencesFrom, hread]
    exact List.mem_cons_self
  | cons c between ih =>
    rw [List.append_cons] at htext hends hread ⊢
    have hmore (k : ℕ) (hk : k ≤ between.length) :
        ((lead ++ [c] ++ between).length, a) ∈
          occurrencesFrom r (some c) (lead.length + 1) k (between ++ behind) := by
      have h := ih (lead ++ [c]) htext hends hk hread
      rwa [List.getLast?_concat, List.length_append] at h
    cases skip with
    | succ skip => exact hmore skip (Nat.le_of_succ_le_succ hskip)
    | zero =>
      rw [List.cons_append, occurrencesFrom]
      split
      · rename_i b left' hread'
        refine List.mem_cons_of_mem _ (hmore _ ?_)
        have hle := hends lead (c :: (between ++ behind)) b left'
          (by rw [htext, List.append_assoc, List.append_assoc]; rfl) (by simp) hread'
        rw [htext] at hle
        simp only [List.length_append] at hle ⊢
        omega
      · exact hmore 0 (Nat.zero_le _)

lemma mem_occurrences {lead behind left : List Char} {a : α}
    (hends : EndsBefore r (lead ++ behind) lead) (hbehind : behind ≠ [])
    (hread : r lead.getLast? behind = some (a, left)) :
    (lead.length, a) ∈ occurrences r (lead ++ behind) :=
  mem_occurrencesFrom (lead ++ behind) [] rfl hends (Nat.zero_le _) hbehind hread

lemma pairwise_occurrences (text : List Char) :
    (occurrences r text).Pairwise fun a b => a.1 < b.1 := by
  have hfrom (before : Option Char) (i skip : ℕ) (rest : List Char) :
      (∀ o ∈ occurrencesFrom r before i skip rest, i ≤ o.1) ∧
        (occurrencesFrom r before i skip rest).Pairwise fun a b => a.1 < b.1 := by
    induction rest generalizing before i skip with
    | nil => cases skip <;> exact ⟨nofun, .nil⟩
    | cons c cs ih =>
      have hmore (k : ℕ) := ih (some c) (i + 1) k
      cases skip with
      | succ skip => exact ⟨fun o ho => Nat.le_of_succ_le ((hmore skip).1 o ho), (hmore skip).2⟩
      | zero =>
        rw [occurrencesFrom]
        split
        · refine ⟨List.forall_mem_cons.mpr ⟨le_rfl, fun o ho => ?_⟩,
            List.pairwise_cons.mpr ⟨(hmore _).1, (hmore _).2⟩⟩
          exact Nat.le_of_succ_le ((hmore _).1 o ho)
        · exact ⟨fun o ho => Nat.le_of_succ_le ((hmore 0).1 o ho), (hmore 0).2⟩
  exact (hfrom none 0 0 text).2

def readingAt (r : Recogniser α) (text : List Char) (i : ℕ) : Option (α × List Char) :=
  r (text.take i).getLast? (text.drop i)

/-- No reading of a text goes further than the start of a later one. -/
def NoOverlap (r : Recogniser α) (text : List Char) : Prop :=
  ∀ i j a b left left', i < j → readingAt r text i = some (a, left) →
    readingAt r text j = some (b, left') → text.length ≤ j + left.length

lemma readingAt_length {lead rest : List Char} :
    readingAt r (lead ++ rest) lead.length = r lead.getLast? rest := by
  rw [readingAt, List.take_left, List.drop_left]

lemma readingAt_of_mem {text : List Char} {i : ℕ} {a : α} (h : (i, a) ∈ occurrences r text) :
    ∃ left, readingAt r text i = some (a, left) := by
  obtain ⟨before, behind, left, rfl, rfl, hread⟩ := exists_of_mem_occurrences h
  exact ⟨left, readingAt_length.trans hread⟩

lemma mem_occurrences_of_readingAt {text left : List Char} (h : NoOverlap r text) {i : ℕ}
    (hi : i < text.length) {a : α} (hread : readingAt r text i = some (a, left)) :
    (i, a) ∈ occurrences r text := by
  obtain ⟨lead, behind, rfl, rfl⟩ : ∃ lead behind, text = lead ++ behind ∧ lead.length = i :=
    ⟨text.take i, text.drop i, (List.take_append_drop i text).symm, by simp; omega⟩
  apply mem_occurrences
  · intro before behind' b left' htext hlt hread'
    refine h before.length lead.length b a left' left hlt ?_ hread
    rw [htext, readingAt_length, hread']
  · rintro rfl
    simp at hi
  · rwa [readingAt_length] at hread

/-- What is always an end of what is read is an end of the text. -/
lemma suffix_of_mem_occurrences (part : α → List Char)
    (hr : ∀ before rest a left, r before rest = some (a, left) → part a <:+ rest)
    {text : List Char} {i : ℕ} {a : α} (h : (i, a) ∈ occurrences r text) : part a <:+ text := by
  obtain ⟨before, behind, left, rfl, -, hread⟩ := exists_of_mem_occurrences h
  exact (hr _ _ _ _ hread).trans (List.suffix_append before behind)

lemma offsetAt_length (lead rest : List Char) :
    offsetAt (lead ++ rest) lead.length = byteLength lead := by
  rw [offsetAt, List.take_left]

lemma exists_of_mem_offsetsOf {word text : List Char} {n : ℕ} (h : n ∈ offsetsOf word text) :
    ∃ lead tail, text = lead ++ (word ++ tail) ∧ byteLength lead = n := by
  obtain ⟨⟨i, u⟩, hmem, rfl⟩ := List.mem_map.mp h
  obtain ⟨before, behind, left, rfl, rfl, hread⟩ := exists_of_mem_occurrences hmem
  obtain ⟨tail, htail, -⟩ := Option.map_eq_some_iff.mp hread
  exact ⟨before, tail, by rw [afterWord?_eq_some.mp htail], (offsetAt_length before behind).symm⟩

end CodeHealth.Proofs.Recognition
