import Mathlib.Data.List.Infix

/-!
Where brackets close, told by counts.

A bracket is open for as long as no more brackets of its kind were closed behind it than opened. The
search for the bracket that closes it keeps the difference, and is at an end when it would fall
below zero.
-/

namespace CodeHealth.Proofs.BracketCounts

/-- The closing bracket of an opening one. -/
def closerOf : Char → Option Char
  | '(' => some ')'
  | '[' => some ']'
  | '{' => some '}'
  | _ => none

/-- What stands before the bracket that brings `depth` open brackets down to none, counted in
characters. -/
def closeWithin (opener closer : Char) : ℕ → List Char → Option ℕ
  | _, [] => none
  | depth, c :: cs =>
    if c = opener then (closeWithin opener closer (depth + 1) cs).map (· + 1)
    else if c = closer then
      if depth ≤ 1 then some 0 else (closeWithin opener closer (depth - 1) cs).map (· + 1)
    else (closeWithin opener closer depth cs).map (· + 1)

variable {opener closer : Char} {depth : ℕ} {cs : List Char}

lemma getElem?_of_closeWithin {k : ℕ} (h : closeWithin opener closer depth cs = some k) :
    cs[k]? = some closer := by
  induction cs generalizing depth k with
  | nil => cases h
  | cons c cs ih =>
    rw [closeWithin] at h
    split_ifs at h with hopener hcloser hlast
    · obtain ⟨k, hk, rfl⟩ := Option.map_eq_some_iff.mp h
      exact ih hk
    · cases h
      rw [hcloser]
      rfl
    · obtain ⟨k, hk, rfl⟩ := Option.map_eq_some_iff.mp h
      exact ih hk
    · obtain ⟨k, hk, rfl⟩ := Option.map_eq_some_iff.mp h
      exact ih hk

/-- With `depth` brackets open before a text, there is no place in it at which more have been
closed. -/
def StaysOpen (opener closer : Char) (depth : ℕ) (cs : List Char) : Prop :=
  ∀ p, p <+: cs → p.count closer ≤ p.count opener + depth

lemma staysOpen_nil : StaysOpen opener closer depth [] := by
  intro p hp
  rw [List.prefix_nil.mp hp, List.count_nil]
  exact Nat.zero_le _

lemma staysOpen_cons {c : Char} : StaysOpen opener closer depth (c :: cs) ↔
    ∀ p, p <+: cs → (c :: p).count closer ≤ (c :: p).count opener + depth := by
  refine ⟨fun h p hp => h _ ((List.prefix_cons_inj c).mpr hp), fun h p hp => ?_⟩
  cases p with
  | nil => exact Nat.zero_le _
  | cons d p =>
    obtain ⟨rfl, hprefix⟩ := List.cons_prefix_cons.mp hp
    exact h p hprefix

lemma staysOpen_opener (hne : opener ≠ closer) :
    StaysOpen opener closer depth (opener :: cs) ↔ StaysOpen opener closer (depth + 1) cs := by
  rw [staysOpen_cons]
  refine forall₂_congr fun p _ => ?_
  rw [List.count_cons_self, List.count_cons_of_ne hne]
  omega

lemma staysOpen_closer (hne : opener ≠ closer) :
    StaysOpen opener closer (depth + 1) (closer :: cs) ↔ StaysOpen opener closer depth cs := by
  rw [staysOpen_cons]
  refine forall₂_congr fun p _ => ?_
  rw [List.count_cons_self, List.count_cons_of_ne hne.symm]
  omega

lemma not_staysOpen_closer (hne : opener ≠ closer) :
    ¬ StaysOpen opener closer 0 (closer :: cs) := by
  intro h
  have hcount := staysOpen_cons.mp h [] List.nil_prefix
  rw [List.count_cons_self, List.count_cons_of_ne hne.symm, List.count_nil, List.count_nil] at hcount
  omega

lemma staysOpen_other {c : Char} (ho : c ≠ opener) (hc : c ≠ closer) :
    StaysOpen opener closer depth (c :: cs) ↔ StaysOpen opener closer depth cs := by
  rw [staysOpen_cons]
  refine forall₂_congr fun p _ => ?_
  rw [List.count_cons_of_ne ho, List.count_cons_of_ne hc]

lemma closeWithin_append (hne : opener ≠ closer) {region : List Char}
    (h : StaysOpen opener closer depth region) (rest : List Char) :
    closeWithin opener closer (depth + 1) (region ++ rest) =
      (closeWithin opener closer (depth + region.count opener - region.count closer + 1) rest).map
        (· + region.length) := by
  induction region generalizing depth with
  | nil => simp
  | cons c region ih =>
    have hlength : (· + 1) ∘ (· + region.length) = (· + (c :: region).length) := by
      funext k
      simp only [Function.comp_apply, List.length_cons]
      omega
    rw [List.cons_append, closeWithin]
    by_cases ho : c = opener
    · subst ho
      rw [if_pos rfl, ih ((staysOpen_opener hne).mp h), Option.map_map, hlength,
        List.count_cons_self, List.count_cons_of_ne hne, Nat.add_right_comm, Nat.add_assoc]
    · rw [if_neg ho]
      by_cases hc : c = closer
      · subst hc
        cases depth with
        | zero => exact absurd h (not_staysOpen_closer hne)
        | succ depth =>
          rw [if_pos rfl, if_neg (by omega), Nat.add_sub_cancel, ih ((staysOpen_closer hne).mp h),
            Option.map_map, hlength, List.count_cons_self, List.count_cons_of_ne hne.symm,
            Nat.add_right_comm, Nat.add_sub_add_right]
      · rw [if_neg hc, ih ((staysOpen_other ho hc).mp h), Option.map_map, hlength,
          List.count_cons_of_ne ho, List.count_cons_of_ne hc]

lemma staysOpen_or_closes (hne : opener ≠ closer) (depth : ℕ) (cs : List Char) :
    StaysOpen opener closer depth cs ∨ ∃ region behind, cs = region ++ closer :: behind ∧
      StaysOpen opener closer depth region ∧
      region.count closer = region.count opener + depth := by
  induction cs generalizing depth with
  | nil => exact .inl staysOpen_nil
  | cons c cs ih =>
    by_cases ho : c = opener
    · subst ho
      refine (ih (depth + 1)).imp (staysOpen_opener hne).mpr ?_
      rintro ⟨region, behind, rfl, hopen, hcount⟩
      refine ⟨c :: region, behind, rfl, (staysOpen_opener hne).mpr hopen, ?_⟩
      rw [List.count_cons_self, List.count_cons_of_ne hne]
      omega
    · by_cases hc : c = closer
      · subst hc
        -- at depth zero this is the bracket that closes; elsewhere it brings the depth down
        cases depth with
        | zero => exact .inr ⟨[], cs, rfl, staysOpen_nil, rfl⟩
        | succ depth =>
          refine (ih depth).imp (staysOpen_closer hne).mpr ?_
          rintro ⟨region, behind, rfl, hopen, hcount⟩
          refine ⟨c :: region, behind, rfl, (staysOpen_closer hne).mpr hopen, ?_⟩
          rw [List.count_cons_self, List.count_cons_of_ne hne.symm]
          omega
      · refine (ih depth).imp (staysOpen_other ho hc).mpr ?_
        rintro ⟨region, behind, rfl, hopen, hcount⟩
        refine ⟨c :: region, behind, rfl, (staysOpen_other ho hc).mpr hopen, ?_⟩
        rwa [List.count_cons_of_ne hc, List.count_cons_of_ne ho]

/-! ### What a bracket holds -/

/-- What a bracket holds, given the text behind it: what stands before the bracket that closes it,
or all of the text if none does. -/
inductive Holds (opener closer : Char) (left : List Char) : List Char → Prop
  | closed {region behind : List Char} : left = region ++ closer :: behind →
      StaysOpen opener closer 0 region → region.count closer = region.count opener →
      Holds opener closer left region
  | unclosed : StaysOpen opener closer 0 left → Holds opener closer left left

/-- What a bracket holds, by the search for the one that closes it. -/
def held (opener closer : Char) (left : List Char) : List Char :=
  left.take ((closeWithin opener closer 1 left).getD left.length)

lemma eq_held_of_holds (hne : opener ≠ closer) {left region : List Char}
    (h : Holds opener closer left region) : region = held opener closer left := by
  cases h with
  | @closed _ behind hleft hopen hcount =>
    have hclose := closeWithin_append hne hopen (closer :: behind)
    rw [Nat.zero_add, Nat.zero_add, hcount, Nat.sub_self, closeWithin, if_neg hne.symm, if_pos rfl,
      if_pos le_rfl, Option.map_some, Nat.zero_add] at hclose
    rw [held, hleft, hclose, Option.getD_some, List.take_left]
  | unclosed hopen =>
    have hclose := closeWithin_append hne hopen []
    rw [List.append_nil, closeWithin, Option.map_none] at hclose
    rw [held, hclose, Option.getD_none, List.take_length]

/-- **A bracket holds what the search finds**, and nothing else. -/
theorem holds_iff (hne : opener ≠ closer) {left region : List Char} :
    Holds opener closer left region ↔ region = held opener closer left := by
  refine ⟨eq_held_of_holds hne, ?_⟩
  rintro rfl
  rcases staysOpen_or_closes hne 0 left with hopen | ⟨region, behind, hleft, hopen, hcount⟩
  · have hholds : Holds opener closer left left := .unclosed hopen
    rwa [← eq_held_of_holds hne hholds]
  · have hholds : Holds opener closer left region := .closed hleft hopen hcount
    rwa [← eq_held_of_holds hne hholds]

end CodeHealth.Proofs.BracketCounts
