import CodeHealth.Check.Suppression
import CodeHealth.Proofs.CommentParts
import CodeHealth.Proofs.LineHits
import CodeHealth.Proofs.Recognition
import Mathlib.Data.List.Range
import Mathlib.Data.Nat.Find

/-!
The places of directives that switch type errors off.

A directive is told if what opens a comment stands before it in its line, with no other directive
between them. What opens a comment may do so in a literal, or in a comment that ends before the
directive, and then the directive may be told though it is in no comment; and in a comment of
several lines only those of the first line are told for it.
-/

namespace CodeHealth.Proofs.SuppressionPlaces

open CodeHealth.Check CodeHealth.Text CodeHealth.Proofs.CommentParts CodeHealth.Proofs.LineHits
  CodeHealth.Proofs.Recognition CodeHealth.Proofs.TextLines

/-! ### Directives -/

/-- The directive that a text starts with, as a whole word. -/
def directive? (rest : List Char) : Option (List Char) :=
  (afterAnyOf? directives rest).bind fun read =>
    if read.2.head?.any isWordChar then none else some read.1

/-- Whether the directive at an index of a line is told: what opens a comment stands before it, not
before the index `i`, and there is no other directive between them. -/
def Told (l : List Char) (i j : ℕ) : Prop :=
  (directive? (l.drop j)).isSome = true ∧
    ∃ o < j, i ≤ o ∧ o + 2 ≤ j ∧ opensComment (l.drop o) = true ∧
      ∀ k < j, o + 2 ≤ k → directive? (l.drop k) = none

instance (l : List Char) (i j : ℕ) : Decidable (Told l i j) :=
  inferInstanceAs (Decidable (_ ∧ _))

def directiveAt (l : List Char) (j : ℕ) : List Char := (directive? (l.drop j)).getD []

section Directives

variable {l rest w : List Char}

lemma directive?_eq {left : List Char} (h : afterAnyOf? directives rest = some (w, left)) :
    directive? rest = if left.head?.any isWordChar then none else some w := by
  rw [directive?, h]
  rfl

lemma exists_of_directive? (h : directive? rest = some w) :
    w ∈ directives ∧ ∃ left, rest = w ++ left ∧ afterAnyOf? directives rest = some (w, left) := by
  obtain ⟨⟨word, left⟩, hafter, hword⟩ := Option.bind_eq_some_iff.mp h
  obtain rfl : word = w := by
    dsimp only at hword
    split_ifs at hword
    exact Option.some.inj hword
  obtain ⟨v, hv, hmap⟩ := List.exists_of_findSome?_eq_some hafter
  obtain ⟨tail, htail, heq⟩ := Option.map_eq_some_iff.mp hmap
  obtain ⟨rfl, rfl⟩ := Prod.mk.inj heq
  exact ⟨hv, tail, afterWord?_eq_some.mp htail, hafter⟩

lemma exists_cons_of_mem_directives (h : w ∈ directives) : ∃ cs, w = '@' :: cs ∧ '/' ∉ w := by
  simp only [directives, List.mem_cons, List.not_mem_nil, or_false] at h
  rcases h with rfl | rfl
  · exact ⟨_, rfl, by decide⟩
  · exact ⟨_, rfl, by decide⟩

lemma length_of_directive? {p : ℕ} (h : directive? (l.drop p) = some w) :
    p + w.length ≤ l.length ∧ 0 < w.length := by
  obtain ⟨hmem, left, hsplit, -⟩ := exists_of_directive? h
  obtain ⟨cs, rfl, -⟩ := exists_cons_of_mem_directives hmem
  have hlength := congrArg List.length hsplit
  rw [List.length_drop, List.length_append, List.length_cons] at hlength
  rw [List.length_cons]
  omega

lemma break_notMem_of_mem_directives (h : w ∈ directives) : '\n' ∉ w ∧ '\r' ∉ w := by
  simp only [directives, List.mem_cons, List.not_mem_nil, or_false] at h
  rcases h with rfl | rfl
  · exact ⟨by decide, by decide⟩
  · exact ⟨by decide, by decide⟩

lemma firstDirective_some {c : Char} {cs : List Char} (h : directive? (c :: cs) = some w) (n : ℕ) :
    firstDirective n (c :: cs) = some (n, w, (c :: cs).drop w.length) := by
  obtain ⟨-, left, hsplit, hafter⟩ := exists_of_directive? h
  have hfree : ¬ left.head?.any isWordChar = true := by
    intro hword
    rw [directive?_eq hafter, if_pos hword] at h
    cases h
  rw [firstDirective, hafter, hsplit, List.drop_left]
  exact if_neg hfree

lemma firstDirective_none {c : Char} {cs : List Char} (h : directive? (c :: cs) = none) (n : ℕ) :
    firstDirective n (c :: cs) = firstDirective (n + 1) cs := by
  rw [firstDirective]
  cases hafter : afterAnyOf? directives (c :: cs) with
  | none => rfl
  | some read =>
    rw [directive?_eq hafter] at h
    split_ifs at h with hword
    exact if_pos hword

lemma firstDirective_cases (n : ℕ) (rest : List Char) :
    (firstDirective n rest = none ∧ ∀ k, directive? (rest.drop k) = none) ∨
    ∃ m w, firstDirective n rest = some (n + m, w, rest.drop (m + w.length)) ∧
      directive? (rest.drop m) = some w ∧ ∀ k < m, directive? (rest.drop k) = none := by
  induction rest generalizing n with
  | nil => exact .inl ⟨rfl, fun k => by rw [List.drop_nil]; rfl⟩
  | cons c cs ih =>
    cases hfirst : directive? (c :: cs) with
    | some w =>
      refine .inr ⟨0, w, ?_, hfirst, fun k hk => absurd hk (Nat.not_lt_zero k)⟩
      rw [firstDirective_some hfirst, Nat.zero_add, Nat.add_zero]
    | none =>
      rw [firstDirective_none hfirst]
      rcases ih (n + 1) with ⟨hnone, hall⟩ | ⟨m, w, hsome, hword, hall⟩
      · refine .inl ⟨hnone, fun k => ?_⟩
        cases k with
        | zero => exact hfirst
        | succ k => exact hall k
      · refine .inr ⟨m + 1, w, ?_, hword, fun k hk => ?_⟩
        · rw [hsome, Nat.add_right_comm m 1, List.drop_succ_cons, Nat.add_assoc, Nat.add_comm 1 m]
        · cases k with
          | zero => exact hfirst
          | succ k => exact hall k (Nat.lt_of_succ_lt_succ hk)

lemma suppressionComment_cases (before : Option Char) (rest : List Char) :
    (suppressionComment before rest = none ∧
      (opensComment rest = true → ∀ k, directive? (rest.drop (k + 2)) = none)) ∨
    ∃ m w, suppressionComment before rest = some ((m + 2, w), rest.drop (m + 2 + w.length)) ∧
      opensComment rest = true ∧ directive? (rest.drop (m + 2)) = some w ∧
      ∀ k < m, directive? (rest.drop (k + 2)) = none := by
  cases hopens : opensComment rest with
  | false =>
    refine .inl ⟨?_, fun h => absurd h Bool.false_ne_true⟩
    unfold suppressionComment
    split
    · rename_i c cs
      exact if_neg (by rw [← Bool.not_eq_true] at hopens; exact hopens)
    · rfl
  | true =>
    obtain ⟨c, cs, rfl, hc⟩ := opensComment_iff.mp hopens
    have hread : suppressionComment before ('/' :: c :: cs) =
        (firstDirective 2 cs).map fun read => ((read.1, read.2.1), read.2.2) := if_pos hopens
    rw [hread]
    rcases firstDirective_cases 2 cs with ⟨hnone, hall⟩ | ⟨m, w, hsome, hword, hall⟩
    · exact .inl ⟨by rw [hnone]; rfl, fun _ => hall⟩
    · refine .inr ⟨m, w, ?_, rfl, hword, hall⟩
      rw [hsome, Nat.add_comm 2 m, Nat.add_right_comm]
      rfl

end Directives

/-! ### The scan of a line -/

section Scan

variable {l w : List Char} {i j p : ℕ}

lemma reading_cases (l : List Char) (i : ℕ) (before : Option Char) :
    (suppressionComment before (l.drop i) = none ∧
      (opensComment (l.drop i) = true → ∀ k, i + 2 ≤ k → directive? (l.drop k) = none)) ∨
    ∃ p w, suppressionComment before (l.drop i) = some ((p - i, w), l.drop (p + w.length)) ∧
      i + 2 ≤ p ∧ opensComment (l.drop i) = true ∧ directive? (l.drop p) = some w ∧
      ∀ k < p, i + 2 ≤ k → directive? (l.drop k) = none := by
  have hfrom {k : ℕ} (hk : i + 2 ≤ k) : ∃ t, k = i + (t + 2) := ⟨k - i - 2, by omega⟩
  rcases suppressionComment_cases before (l.drop i) with
    ⟨hnone, hall⟩ | ⟨m, w, hsome, hopens, hword, hall⟩
  · refine .inl ⟨hnone, fun hopens k hk => ?_⟩
    obtain ⟨t, rfl⟩ := hfrom hk
    rw [← List.drop_drop]
    exact hall hopens t
  · rw [List.drop_drop] at hsome hword
    refine .inr ⟨i + (m + 2), w, ?_, by omega, hopens, hword, fun k hkp hk => ?_⟩
    · rw [hsome, Nat.add_sub_cancel_left, Nat.add_assoc i]
    · obtain ⟨t, rfl⟩ := hfrom hk
      rw [← List.drop_drop]
      exact hall t (by omega)

lemma not_told_of_lt (h : j < i + 2) : ¬ Told l i j := by
  rintro ⟨-, o, -, hi, hj, -⟩
  omega

/-- Where nothing is read, what is told is told from the next place on. -/
lemma told_next
    (h : opensComment (l.drop i) = true → ∀ k, i + 2 ≤ k → directive? (l.drop k) = none) :
    Told l i j ↔ Told l (i + 1) j := by
  constructor
  · rintro ⟨hdirective, o, hoj, hio, hj, hopens, hnone⟩
    refine ⟨hdirective, o, hoj, Nat.lt_of_le_of_ne hio ?_, hj, hopens, hnone⟩
    rintro rfl
    rw [h hopens j hj] at hdirective
    cases hdirective
  · rintro ⟨hdirective, o, hoj, hio, hrest⟩
    exact ⟨hdirective, o, hoj, Nat.le_of_succ_le hio, hrest⟩

lemma le_of_opensComment {o : ℕ} (hp : directive? (l.drop p) = some w)
    (hopens : opensComment (l.drop o) = true) (h : p < o + 2) : p + w.length ≤ o := by
  obtain ⟨hmem, left, hsplit, -⟩ := exists_of_directive? hp
  obtain ⟨ds, hw, hslash⟩ := exists_cons_of_mem_directives hmem
  obtain ⟨d, cs, hdrop, hd⟩ := opensComment_iff.mp hopens
  by_contra! hlt
  rcases Nat.lt_or_ge o p with hbefore | hin
  · -- its second character would be the at sign
    obtain rfl : p = o + 1 := by omega
    have hhead : d :: cs = '@' :: (ds ++ left) := by
      rw [← List.drop_drop, hdrop, hw] at hsplit
      exact hsplit
    obtain ⟨rfl, -⟩ := List.cons.inj hhead
    exact absurd hd (by decide)
  · -- its first character would be one of the directive
    obtain ⟨t, rfl⟩ := Nat.exists_eq_add_of_le hin
    have hget : (w ++ left)[t]? = some '/' := by
      rw [← hsplit, List.getElem?_drop, ← List.head?_drop, hdrop]
      rfl
    rw [List.getElem?_append_left (by omega)] at hget
    exact hslash (List.mem_of_getElem? hget)

lemma told_read (hip : i + 2 ≤ p) (hopens : opensComment (l.drop i) = true)
    (hdirective : directive? (l.drop p) = some w)
    (hfirst : ∀ k < p, i + 2 ≤ k → directive? (l.drop k) = none) :
    Told l i j ↔ j = p ∨ Told l (p + w.length) j := by
  constructor
  · rintro ⟨hj, o, hoj, hio, hle, ho, hnone⟩
    rcases Nat.lt_trichotomy j p with hlt | heq | hgt
    · rw [hfirst j hlt (by omega)] at hj
      cases hj
    · exact .inl heq
    · refine .inr ⟨hj, o, hoj, le_of_opensComment hdirective ho ?_, hle, ho, hnone⟩
      by_contra! hbetween
      rw [hnone p hgt hbetween] at hdirective
      cases hdirective
  · rintro (rfl | ⟨hj, o, hoj, hio, hrest⟩)
    · exact ⟨by rw [hdirective]; rfl, i, by omega, le_rfl, hip, hopens, hfirst⟩
    · exact ⟨hj, o, hoj, by omega, hrest⟩

/-- Of the numbers from one on that are a number or fulfil a condition, the number is the first if
none up to it fulfils the condition. -/
lemma filter_range'_first {q r : ℕ → Bool} {a n : ℕ} (hap : a ≤ p) (hpn : p < a + n)
    (hp : q p = true) (hbefore : ∀ j < p, q j = false) (hnone : ∀ j ≤ p, r j = false)
    (hbehind : ∀ j > p, q j = r j) :
    (List.range' a n).filter q = p :: (List.range' a n).filter r := by
  induction n generalizing a with
  | zero => omega
  | succ n ih =>
    rw [List.range'_succ, List.filter_cons, List.filter_cons, hnone a hap,
      if_neg Bool.false_ne_true]
    rcases Nat.lt_or_eq_of_le hap with hlt | rfl
    · rw [hbefore a hlt, if_neg Bool.false_ne_true]
      exact ih hlt (by omega)
    · rw [hp, if_pos rfl]
      refine congrArg _ (List.filter_congr fun j hj => hbehind j ?_)
      have := List.mem_range'_1.mp hj
      omega

lemma filter_told {n : ℕ} (hip : i + 2 ≤ p) (hpn : p < i + n)
    (hopens : opensComment (l.drop i) = true) (hdirective : directive? (l.drop p) = some w)
    (hfirst : ∀ k < p, i + 2 ≤ k → directive? (l.drop k) = none) :
    (List.range' i n).filter (fun j => decide (Told l i j)) =
      p :: (List.range' i n).filter fun j => decide (Told l (p + w.length) j) := by
  have htold (j : ℕ) := told_read (j := j) hip hopens hdirective hfirst
  refine filter_range'_first (by omega) hpn ?_ (fun j hj => ?_) (fun j hj => ?_) fun j hj => ?_
  · exact decide_eq_true ((htold p).mpr (.inl rfl))
  · refine decide_eq_false fun h => ?_
    rcases (htold j).mp h with rfl | hlater
    · exact Nat.lt_irrefl j hj
    · exact not_told_of_lt (by omega) hlater
  · exact decide_eq_false (not_told_of_lt (by omega))
  · exact decide_eq_decide.mpr ((htold j).trans (or_iff_right (by omega)))

/-- **The readings of a line** are the directives that are told. -/
lemma map_occurrencesFrom {rest : List Char} {skip : ℕ} (before : Option Char)
    (hdrop : l.drop i = rest) :
    (occurrencesFrom suppressionComment before i skip rest).map (fun o => (o.1 + o.2.1, o.2.2)) =
      ((List.range' i rest.length).filter (fun j => decide (Told l (i + skip) j))).map
        fun j => (j, directiveAt l j) := by
  induction rest generalizing before i skip with
  | nil => cases skip <;> rfl
  | cons c cs ih =>
    have hcs : l.drop (i + 1) = cs := by rw [← List.drop_drop, hdrop]; rfl
    have hhere (from_ : ℕ) (h : i < from_ + 2) : decide (Told l from_ i) = false :=
      decide_eq_false (not_told_of_lt h)
    rw [List.length_cons]
    -- a skipped index tells nothing; elsewhere a reading fails, or gives the next directive told
    cases skip with
    | succ skip =>
      rw [occurrencesFrom, ih _ hcs, List.range'_succ, List.filter_cons, hhere _ (by omega),
        if_neg Bool.false_ne_true, Nat.add_right_comm, Nat.add_assoc]
    | zero =>
      rw [Nat.add_zero]
      rcases reading_cases l i before with ⟨hnone, hall⟩ | ⟨p, w, hsome, hip, hopens, hword, hall⟩
      · rw [hdrop] at hnone
        have htold (j : ℕ) : decide (Told l (i + 1) j) = decide (Told l i j) :=
          decide_eq_decide.mpr (told_next hall).symm
        simp only [occurrencesFrom, hnone]
        rw [ih _ hcs, Nat.add_zero, List.range'_succ, List.filter_cons, hhere i (by omega),
          if_neg Bool.false_ne_true, List.filter_congr fun j _ => htold j]
      · obtain ⟨hend, hpos⟩ := length_of_directive? hword
        have hlength : l.length = i + (cs.length + 1) := by
          have h := congrArg List.length hdrop
          rw [List.length_drop, List.length_cons] at h
          omega
        -- the search goes on behind the word
        have hskip : i + 1 + (cs.length - (l.drop (p + w.length)).length) = p + w.length := by
          rw [List.length_drop]
          omega
        have hat : directiveAt l p = w := by rw [directiveAt, hword]; rfl
        rw [filter_told hip (by omega) hopens hword hall, List.map_cons, hat, List.range'_succ,
          List.filter_cons, hhere _ (by omega), if_neg Bool.false_ne_true]
        rw [hdrop] at hsome
        simp only [occurrencesFrom, hsome, List.map_cons]
        rw [ih _ hcs, hskip, Nat.add_sub_cancel' (by omega)]

end Scan

/-! ### Files -/

def directiveAdvice (word : List Char) : String × String :=
  ("`" ++ String.ofList word ++ "` suppresses type errors",
    "Fix the underlying type error, or use @ts-expect-error with a reason")

/-- The hits in a text: the directives of its lines that are told, from left to right. -/
def directiveHits (text : List Char) : List Hit :=
  lineHits (fun l j => decide (Told l 0 j)) (fun l j => directiveAdvice (directiveAt l j)) text

lemma check_eq (src : Source) :
    suppression.check src = .hits ((directiveHits src.content).map Hit.narrow) := by
  refine congrArg Outcome.hits (hitsByLine_eq (fun n l => ?_) src.content)
  have hread : (occurrences suppressionComment l).map (fun o => (o.1 + o.2.1, o.2.2)) = _ :=
    map_occurrencesFrom none List.drop_zero
  have hmap := congrArg (List.map fun told => Hit.at ⟨n, columnAt l (offsetAt l told.1)⟩
    (directiveAdvice told.2).1 (directiveAdvice told.2).2) hread
  rw [List.map_map, List.map_map, ← List.range_eq_range', ← List.filterMap_eq_map] at hmap
  exact hmap

/-! ### Lines and comments -/

section Lines

variable {x tail w : List Char}

lemma directive?_eq_some {rest : List Char} : directive? rest = some w ↔
    w ∈ directives ∧ ∃ left, rest = w ++ left ∧ left.head?.any isWordChar = false := by
  constructor
  · intro h
    obtain ⟨hmem, left, hsplit, hafter⟩ := exists_of_directive? h
    rw [directive?_eq hafter] at h
    split_ifs at h with hword
    exact ⟨hmem, left, hsplit, Bool.eq_false_iff.mpr hword⟩
  · rintro ⟨hmem, left, rfl, hfree⟩
    have hword : afterWord? w (w ++ left) = some left := afterWord?_eq_some.mpr rfl
    have hafter : afterAnyOf? directives (w ++ left) = some (w, left) := by
      simp only [directives, List.mem_cons, List.not_mem_nil, or_false] at hmem
      rcases hmem with rfl | rfl
      · rw [afterAnyOf?, directives, List.findSome?_cons, hword]
        rfl
      · have hother : afterWord? "@ts-ignore".toList ("@ts-nocheck".toList ++ left) = none := rfl
        rw [afterAnyOf?, directives, List.findSome?_cons, hother, Option.map_none,
          List.findSome?_cons, hword]
        rfl
    rw [directive?_eq hafter, hfree, if_neg Bool.false_ne_true]

lemma directive?_append (htail : ∀ c ∈ tail.head?, c = '\n' ∨ c = '\r') (x : List Char) :
    directive? (x ++ tail) = directive? x := by
  have hend {left : List Char} :
      (left ++ tail).head?.any isWordChar = left.head?.any isWordChar := by
    cases left with
    | cons c left => rfl
    | nil =>
      cases tail with
      | nil => rfl
      | cons c tail => rcases htail c rfl with rfl | rfl <;> rfl
  refine Option.ext fun w => ?_
  rw [directive?_eq_some, directive?_eq_some]
  refine and_congr_right fun hmem => ⟨?_, ?_⟩
  · rintro ⟨left, hsplit, hfree⟩
    rcases List.append_eq_append_iff.mp hsplit with ⟨m, rfl, rfl⟩ | ⟨m, rfl, rfl⟩
    · -- the directive would go on behind the line
      cases m with
      | nil => exact ⟨[], by rw [List.append_nil, List.append_nil], rfl⟩
      | cons c m =>
        obtain ⟨hbreak, hreturn⟩ := break_notMem_of_mem_directives hmem
        have hc : c ∈ x ++ c :: m := List.mem_append_right x List.mem_cons_self
        rcases htail c rfl with rfl | rfl
        · exact absurd hc hbreak
        · exact absurd hc hreturn
    · exact ⟨m, rfl, hend ▸ hfree⟩
  · rintro ⟨left, rfl, hfree⟩
    exact ⟨left ++ tail, List.append_assoc _ _ _, hend.trans hfree⟩

lemma opensComment_append (htail : ∀ c ∈ tail.head?, c = '\n' ∨ c = '\r') (x : List Char) :
    opensComment (x ++ tail) = opensComment x := by
  have hmark {d : Char} {cs : List Char} (h : tail = d :: cs) : ¬ (d = '/' ∨ d = '*') := by
    rcases htail d (by rw [h]; rfl) with rfl | rfl <;> decide
  refine Bool.eq_iff_iff.mpr ?_
  rw [opensComment_iff, opensComment_iff]
  constructor
  · rintro ⟨d, cs, hsplit, hd⟩
    rcases x with _ | ⟨c, _ | ⟨e, x⟩⟩
    · exact absurd (Or.inl rfl) (hmark hsplit)
    · exact absurd hd (hmark (List.cons.inj hsplit).2)
    · obtain ⟨rfl, hmore⟩ := List.cons.inj hsplit
      obtain ⟨rfl, -⟩ := List.cons.inj hmore
      exact ⟨e, x, rfl, hd⟩
  · rintro ⟨d, cs, rfl, hd⟩
    exact ⟨d, cs ++ tail, rfl, hd⟩

end Lines

def InComment (t : List Char) (k : ℕ) : Prop := ∃ s, (parts t)[k]? = some (.comment s)

/-- What opens a comment is before an index in its line, but there it stands in a literal, or in a
comment that the index is not in. -/
def Strays (t : List Char) (k : ℕ) : Prop :=
  ∃ o, o + 2 ≤ k ∧ (Position.ofIndex t o).line = (Position.ofIndex t k).line ∧
    opensComment (t.drop o) = true ∧
    ((parts t)[o]? = some .literal ∨ InComment t o ∧ ¬ InComment t k)

section Places

variable {text lead line tail : List Char} {n : ℕ} (hline : IsLineAt text n lead line tail)
include hline

lemma directive?_line {j : ℕ} (hj : j ≤ line.length) :
    directive? (text.drop (lead.length + j)) = directive? (line.drop j) := by
  rw [hline.drop hj, directive?_append hline.ends]

lemma opensComment_line {o : ℕ} (ho : o ≤ line.length) :
    opensComment (text.drop (lead.length + o)) = opensComment (line.drop o) := by
  rw [hline.drop ho, opensComment_append hline.ends]

/-- A directive that is told is in a comment, or what opens one is before it and opens nothing for
it. -/
lemma inComment_or_strays {j : ℕ} (hj : j < line.length) (htold : Told line 0 j) :
    InComment text (lead.length + j) ∨ Strays text (lead.length + j) := by
  obtain ⟨-, o, hoj, -, hle, hopens, -⟩ := htold
  have ho : o ≤ line.length := by omega
  rw [← opensComment_line hline ho] at hopens
  have hlength : lead.length + o < (parts text).length := by
    rw [length_parts, hline.split, List.length_append, List.length_append]
    omega
  have hpart := part_of_opensComment (List.getElem?_eq_getElem hlength) hopens
  by_cases hin : InComment text (lead.length + j)
  · exact .inl hin
  · refine .inr ⟨lead.length + o, by omega, ?_, hopens, ?_⟩
    · rw [hline.ofIndex ho, hline.ofIndex hj.le]
    · rw [List.getElem?_eq_getElem hlength, Option.some.injEq]
      rcases hpart with hliteral | ⟨s, hs⟩
      · exact .inl hliteral
      · exact .inr ⟨⟨s, (List.getElem?_eq_getElem hlength).trans (congrArg some hs)⟩, hin⟩

end Places

lemma exists_told {l : List Char} {o j : ℕ} (hopens : opensComment (l.drop o) = true)
    (hoj : o + 2 ≤ j) (hj : (directive? (l.drop j)).isSome = true) : ∃ k, Told l 0 k := by
  have hex : ∃ k, o + 2 ≤ k ∧ (directive? (l.drop k)).isSome = true := ⟨j, hoj, hj⟩
  obtain ⟨hle, hsome⟩ := Nat.find_spec hex
  refine ⟨Nat.find hex, hsome, o, by omega, Nat.zero_le o, hle, hopens, fun k hk hok => ?_⟩
  have hnot := Nat.find_min hex hk
  rw [not_and, Bool.not_eq_true, Option.isSome_eq_false_iff, Option.isNone_iff_eq_none] at hnot
  exact hnot hok

lemma exists_hit {text : List Char} {k s : ℕ} (hk : (directive? (text.drop k)).isSome = true)
    (hs : (parts text)[k]? = some (.comment s))
    (hsame : (Position.ofIndex text s).line = (Position.ofIndex text k).line) :
    ∃ h ∈ directiveHits text, h.line = (Position.ofIndex text k).line := by
  obtain ⟨w, hw⟩ := Option.isSome_iff_exists.mp hk
  obtain ⟨hmem, left, hsplit, -⟩ := exists_of_directive? hw
  obtain ⟨cs, hcs, -⟩ := exists_cons_of_mem_directives hmem
  have hat : text[k]? = some '@' := by
    rw [← List.head?_drop, hsplit, hcs]
    rfl
  obtain ⟨n, lead, line, tail, j, hnumbered, hline, rfl, hj⟩ :=
    exists_line_of_index hat (by decide) (by decide)
  obtain ⟨hopens, hle⟩ := opensComment_of_part hs
  rw [hline.ofIndex hj.le] at hsame ⊢
  -- the comment is opened in this line and before the directive
  obtain ⟨o, rfl⟩ : ∃ o, s = lead.length + o := by
    refine Nat.exists_eq_add_of_le (Nat.le_of_not_lt fun hlt => ?_)
    have hearlier := hline.line_lt hlt
    rw [hsame] at hearlier
    exact Nat.lt_irrefl n hearlier
  have hoj : o + 2 ≤ j := by
    by_contra! hlt
    have hbehind := le_of_opensComment hw hopens (by omega)
    have hpos := (length_of_directive? hw).2
    omega
  rw [opensComment_line hline (by omega)] at hopens
  rw [directive?_line hline hj.le] at hk
  obtain ⟨i, htold⟩ := exists_told hopens hoj hk
  obtain ⟨v, hv⟩ := Option.isSome_iff_exists.mp htold.1
  obtain ⟨hend, hpos⟩ := length_of_directive? hv
  exact ⟨_, mem_lineHits.mpr ⟨n, line, i, hnumbered, by omega, decide_eq_true htold, rfl⟩, rfl⟩

lemma hit_place {text : List Char} {h : Hit} (hmem : h ∈ directiveHits text) :
    ∃ k, Position.ofIndex text k = h.place ∧ (directive? (text.drop k)).isSome = true ∧
      (InComment text k ∨ Strays text k) := by
  obtain ⟨n, l, j, hnumbered, hj, hchosen, rfl⟩ := mem_lineHits.mp hmem
  have htold := of_decide_eq_true hchosen
  obtain ⟨lead, tail, hline⟩ := exists_isLineAt hnumbered
  exact ⟨lead.length + j, hline.ofIndex hj.le, (directive?_line hline hj.le) ▸ htold.1,
    inComment_or_strays hline hj htold⟩

/-- **A directive is told behind what opens a comment in its line.** A directive is told if what
opens a comment stands before it with no other directive between them. So each hit is at a directive
in a comment, or what opens a comment is before it in a literal or in a comment that has ended; and
a directive in a comment has a hit in its line if the comment is opened in that line. The comments
are those that are masked. Of the place of a hit is told what fits 32 bits, and that is all of it if
the places of the text fit. -/
theorem check_directives (src : Source) :
    suppression.check src = .hits ((directiveHits src.content).map Hit.narrow) ∧
    (PlacesFit src.content → suppression.check src = .hits (directiveHits src.content)) ∧
    mask src.content = List.zipWith shown src.content (parts src.content) ∧
    (∀ h ∈ directiveHits src.content, ∃ k, Position.ofIndex src.content k = h.place ∧
      (directive? (src.content.drop k)).isSome = true ∧
      (InComment src.content k ∨ Strays src.content k)) ∧
    (∀ k s, (directive? (src.content.drop k)).isSome = true →
      (parts src.content)[k]? = some (.comment s) →
      (Position.ofIndex src.content s).line = (Position.ofIndex src.content k).line →
      ∃ h ∈ directiveHits src.content, h.line = (Position.ofIndex src.content k).line) :=
  ⟨check_eq src, fun hfit => by rw [check_eq, directiveHits, map_narrow_lineHits hfit],
    mask_eq src.content, fun _ => hit_place, fun _ _ => exists_hit⟩

def fileOf (content : List Char) : Source where
  path := ⟨"cart.ts"⟩
  content := content
  masked := mask content
  tree := none
  options := .empty

def behindCode : List Char := "pay(\"a\"); /* for now @ts-ignore */\n".toList

theorem check_directives_behindCode :
    (directive? (behindCode.drop 21)).isSome = true ∧ (parts behindCode)[21]? = some (.comment 10) ∧
    (Position.ofIndex behindCode 10).line = 1 ∧ (Position.ofIndex behindCode 21).line = 1 ∧
    ∃ h ∈ directiveHits behindCode, h.line = 1 := by
  have hdirective : (directive? (behindCode.drop 21)).isSome = true := by decide +kernel
  have hpart : (parts behindCode)[21]? = some (.comment 10) := by decide +kernel
  have hstart : (Position.ofIndex behindCode 10).line = 1 := by decide +kernel
  have hline : (Position.ofIndex behindCode 21).line = 1 := by decide +kernel
  refine ⟨hdirective, hpart, hstart, hline, ?_⟩
  have hhit := (check_directives (fileOf behindCode)).2.2.2.2 21 10 hdirective hpart
    (hstart.trans hline.symm)
  rwa [← hline]

/-- An address in a string, with a directive behind its slashes. -/
def inString : List Char := "const u = \"http://x.test/ @ts-ignore\";\n".toList

/-- A comment of three lines with a directive in the second. -/
def inBlock : List Char := "/*\n * @ts-ignore\n */\nfoo();\n".toList

/-- A directive in a string is told, and one in the second line of a comment is not. -/
theorem check_inString_inBlock :
    suppression.check (fileOf inString) = .hits [.at ⟨1, 27⟩ "`@ts-ignore` suppresses type errors"
      "Fix the underlying type error, or use @ts-expect-error with a reason"] ∧
    Position.ofIndex inString 26 = ⟨1, 27⟩ ∧ (parts inString)[26]? = some .literal ∧
    suppression.check (fileOf inBlock) = .hits [] ∧
    (directive? (inBlock.drop 6)).isSome = true ∧ (parts inBlock)[6]? = some (.comment 0) := by
  refine ⟨?_, ?_, ?_, ?_, ?_, ?_⟩ <;> decide +kernel

end CodeHealth.Proofs.SuppressionPlaces
