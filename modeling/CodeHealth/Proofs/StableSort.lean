import Mathlib.Data.List.Basic

/-!
Sorting that keeps ties in their order.

A list in some order is known once it is known, for every element, what ties with it and in which
order that stands. Stable sorting changes none of that, so it does not matter whether elements are
chosen before or after a list is sorted.
-/

namespace CodeHealth.Proofs.StableSort

lemma eq_of_pairwise_of_ties {α : Type} {le : α → α → Prop} {tied : α → α → Bool}
    (hrefl : ∀ a, tied a a = true) (htied : ∀ a b, le a b → le b a → tied a b = true)
    {xs ys : List α} (hx : xs.Pairwise le) (hy : ys.Pairwise le)
    (h : ∀ x, xs.filter (tied x) = ys.filter (tied x)) : xs = ys := by
  induction xs generalizing ys with
  | nil =>
    cases ys with
    | nil => rfl
    | cons b ys => simpa [hrefl] using h b
  | cons a xs ih =>
    cases ys with
    | nil => simpa [hrefl] using h a
    | cons b ys =>
      have hxa := List.pairwise_cons.mp hx
      have hyb := List.pairwise_cons.mp hy
      -- each head stands somewhere in the other list, hence not before the other head
      have hab : tied a b = true := by
        have ha : a ∈ (b :: ys).filter (tied a) := by rw [← h a]; simp [hrefl]
        have hb : b ∈ (a :: xs).filter (tied b) := by rw [h b]; simp [hrefl]
        rcases List.mem_cons.mp (List.mem_filter.mp ha).1 with rfl | ha
        · exact hrefl a
        rcases List.mem_cons.mp (List.mem_filter.mp hb).1 with rfl | hb
        · exact hrefl b
        exact htied a b (hxa.1 b hb) (hyb.1 a ha)
      have hhead := h a
      rw [List.filter_cons_of_pos (hrefl a), List.filter_cons_of_pos hab] at hhead
      obtain ⟨rfl, -⟩ := List.cons.inj hhead
      refine congrArg (a :: ·) (ih hxa.2 hyb.2 fun x => ?_)
      have hxs := h x
      rw [List.filter_cons, List.filter_cons] at hxs
      cases hxa : tied x a with
      | true => simpa [hxa] using hxs
      | false => simpa [hxa] using hxs

section

variable {α : Type} {le : α → α → Bool}

/-- Neither of two elements has to come before the other. -/
def tied (le : α → α → Bool) (a b : α) : Bool := le a b && le b a

lemma tied_iff {a b : α} : tied le a b = true ↔ le a b = true ∧ le b a = true := by
  rw [tied, Bool.and_eq_true]

variable (trans : ∀ a b c, le a b = true → le b c = true → le a c = true)
include trans

/-- What ties with one element is in order, whatever its order is. -/
lemma pairwise_filter_tied (x : α) (xs : List α) :
    (xs.filter (tied le x)).Pairwise fun a b => le a b = true := by
  refine List.pairwise_iff_forall_sublist.mpr fun {a b} h => ?_
  have ha := (List.mem_filter.mp (h.subset (by simp : a ∈ [a, b]))).2
  have hb := (List.mem_filter.mp (h.subset (by simp : b ∈ [a, b]))).2
  exact trans a x b (tied_iff.mp ha).2 (tied_iff.mp hb).1

variable (total : ∀ a b, (le a b || le b a) = true)
include total

/-- **Sorting is stable**: what ties keeps its order. -/
theorem filter_tied_mergeSort (x : α) (xs : List α) :
    (xs.mergeSort le).filter (tied le x) = xs.filter (tied le x) := by
  have hsub : (xs.filter (tied le x)).Sublist ((xs.mergeSort le).filter (tied le x)) := by
    have h := List.sublist_mergeSort trans total (pairwise_filter_tied trans x xs)
      List.filter_sublist
    have h' := h.filter (tied le x)
    simp only [List.filter_filter, Bool.and_self] at h'
    exact h'
  exact (hsub.eq_of_length ((List.mergeSort_perm xs le).filter (tied le x)).length_eq.symm).symm

/-- **Sorting and choosing commute.** -/
theorem filter_mergeSort (p : α → Bool) (xs : List α) :
    (xs.mergeSort le).filter p = (xs.filter p).mergeSort le := by
  have hself (a : α) : tied le a a = true := by simpa [tied] using total a a
  refine eq_of_pairwise_of_ties hself (fun a b hab hba => tied_iff.mpr ⟨hab, hba⟩)
    ((List.pairwise_mergeSort trans total xs).sublist List.filter_sublist)
    (List.pairwise_mergeSort trans total _) fun x => ?_
  rw [filter_tied_mergeSort trans total, List.filter_comm, filter_tied_mergeSort trans total,
    List.filter_comm]

end

end CodeHealth.Proofs.StableSort
