import CodeHealth.Finding.Basic
import CodeHealth.Proofs.StableSort
import Mathlib.Data.Fintype.EquivFin

/-!
The order in which findings are shown.

Paths are compared component by component, and findings by path, line, column and rule. That is a
total order up to ties, and a tie means the same place and the same rule. Sorting keeps ties in
their order; so a sorted list is known once it is known, for every place and rule, what was found
there and in which order.
-/

namespace CodeHealth.Proofs.FindingOrder

open Std

lemma transCmp_comap {α β : Type} (f : α → β) (cmp : β → β → Ordering) [TransCmp cmp] :
    TransCmp fun a b => cmp (f a) (f b) where
  eq_swap := OrientedCmp.eq_swap
  isLE_trans := TransCmp.isLE_trans

lemma bne_gt_iff (o : Ordering) : (o != .gt) = true ↔ o.isLE := by
  cases o <;> decide

section

variable {α : Type} {cmp : α → α → Ordering} [TransCmp cmp] {a b c : α}

lemma bne_gt_trans (hab : (cmp a b != .gt) = true) (hbc : (cmp b c != .gt) = true) :
    (cmp a c != .gt) = true := by
  rw [bne_gt_iff] at *
  exact TransCmp.isLE_trans hab hbc

lemma bne_gt_total : (cmp a b != .gt || cmp b a != .gt) = true := by
  have hswap : cmp b a = (cmp a b).swap := OrientedCmp.eq_swap
  rw [hswap]
  cases cmp a b <;> rfl

end

/-! ### Paths -/

lemma eq_of_rank_label {a b : Path.Component} (hr : a.rank = b.rank) (hl : a.label = b.label) :
    a = b := by
  cases a <;> cases b <;> simp_all [Path.Component.rank, Path.Component.label]

lemma compare_component_eq_lex : Path.Component.compare =
    compareLex (compareOn Path.Component.rank) (compareOn Path.Component.label) := rfl

instance : TransCmp Path.Component.compare := by
  rw [compare_component_eq_lex]
  infer_instance

instance : LawfulEqCmp Path.Component.compare where
  compare_self := ReflCmp.compare_self
  eq_of_compare {a b} h := by
    obtain ⟨hr, hl⟩ := Ordering.then_eq_eq.mp h
    exact eq_of_rank_label (LawfulEqCmp.eq_of_compare hr) (LawfulEqCmp.eq_of_compare hl)

instance : TransCmp Path.compare := transCmp_comap Path.components _

lemma same_iff {a b : Path} : a.same b = true ↔ a.components = b.components := by
  rw [Path.same, decide_eq_true_iff]

lemma compare_eq_iff_same (a b : Path) : a.compare b = .eq ↔ a.same b = true := by
  have h : List.compareLex Path.Component.compare a.components b.components = .eq ↔
      a.components = b.components := LawfulEqCmp.compare_eq_iff_eq
  rw [same_iff]
  exact h

lemma same_refl (a : Path) : a.same a = true := by simp [Path.same]

lemma path_le_trans (a b c : Path) (hab : a.le b = true) (hbc : b.le c = true) :
    a.le c = true := bne_gt_trans hab hbc

lemma path_le_total (a b : Path) : (a.le b || b.le a) = true := bne_gt_total

/-! ### Findings -/

lemma compare_eq_lex : Finding.compare =
    compareLex (fun a b => Path.compare a.file b.file)
      (compareLex (compareOn Finding.line)
        (compareLex (compareOn Finding.column) (compareOn Finding.ruleId))) := rfl

instance : TransCmp Finding.compare := by
  have := transCmp_comap Finding.file Path.compare
  rw [compare_eq_lex]
  infer_instance

lemma compare_self (a : Finding) : a.compare a = .eq := ReflCmp.compare_self

lemma compare_swap (a b : Finding) : b.compare a = (a.compare b).swap := OrientedCmp.eq_swap

/-- Two findings tie: neither has to be shown first. -/
def tied (a b : Finding) : Bool := a.compare b == .eq

lemma tied_iff (a b : Finding) : tied a b = true ↔
    a.file.same b.file = true ∧ a.line = b.line ∧ a.column = b.column ∧ a.ruleId = b.ruleId := by
  simp only [tied, Finding.compare, beq_iff_eq, Ordering.then_eq_eq, compare_eq_iff_same,
    Std.compare_eq_iff_eq]

lemma tied_refl (a : Finding) : tied a a = true := by
  rw [tied, compare_self]
  rfl

lemma le_iff (a b : Finding) : a.le b = true ↔ (a.compare b).isLE := bne_gt_iff (a.compare b)

lemma le_trans (a b c : Finding) (hab : a.le b = true) (hbc : b.le c = true) :
    a.le c = true := bne_gt_trans hab hbc

lemma le_total (a b : Finding) : (a.le b || b.le a) = true := bne_gt_total

lemma tied_iff_le (a b : Finding) : tied a b = true ↔ a.le b = true ∧ b.le a = true := by
  rw [tied, Finding.le, Finding.le, compare_swap a b]
  cases a.compare b <;> decide

lemma isLE_compare_string (a b : String) : (compare a b).isLE = true ↔ a ≤ b := by
  have h : compare a b = compareOfLessAndEq a b := rfl
  rw [h]
  exact isLE_compareOfLessAndEq String.le_antisymm String.not_le String.le_total

lemma le_iff_of_file {a b : Finding} (h : a.file = b.file) : a.le b = true ↔
    a.line < b.line ∨ a.line = b.line ∧
      (a.column < b.column ∨ a.column = b.column ∧ a.ruleId ≤ b.ruleId) := by
  have hfile : a.file.compare b.file = .eq := by
    rw [h]
    exact ReflCmp.compare_self
  simp only [le_iff, Finding.compare, hfile, Ordering.eq_then, Ordering.isLE_then_iff_or,
    Nat.compare_eq_lt, Nat.compare_eq_eq, isLE_compare_string]

/-! ### Sorting -/

def Sorted (fs : List Finding) : Prop := fs.Pairwise fun a b => a.le b = true

lemma sorted_sort (fs : List Finding) : Sorted (Finding.sort fs) :=
  List.pairwise_mergeSort le_trans le_total fs

lemma sort_perm (fs : List Finding) : (Finding.sort fs).Perm fs := List.mergeSort_perm fs _

@[simp] lemma mem_sort {f : Finding} {fs : List Finding} : f ∈ Finding.sort fs ↔ f ∈ fs :=
  List.mem_mergeSort

lemma sort_of_sorted {fs : List Finding} (h : Sorted fs) : Finding.sort fs = fs :=
  List.mergeSort_of_pairwise h

lemma tied_eq : tied = StableSort.tied Finding.le := by
  funext a b
  rw [Bool.eq_iff_iff, tied_iff_le, StableSort.tied_iff]

/-- **Sorting is stable**: what ties keeps its order. -/
lemma filter_tied_sort (x : Finding) (fs : List Finding) :
    (Finding.sort fs).filter (tied x) = fs.filter (tied x) := by
  rw [tied_eq]
  exact StableSort.filter_tied_mergeSort le_trans le_total x fs

/-- **A sorted list is known from its ties.** -/
lemma eq_of_sorted {fs gs : List Finding} (hf : Sorted fs) (hg : Sorted gs)
    (h : ∀ x, fs.filter (tied x) = gs.filter (tied x)) : fs = gs :=
  StableSort.eq_of_pairwise_of_ties tied_refl (fun a b hab hba => (tied_iff_le a b).mpr ⟨hab, hba⟩) hf hg h

theorem sort_congr {fs gs : List Finding} (h : ∀ x, fs.filter (tied x) = gs.filter (tied x)) :
    Finding.sort fs = Finding.sort gs := by
  refine eq_of_sorted (sorted_sort fs) (sorted_sort gs) fun x => ?_
  rw [filter_tied_sort, filter_tied_sort, h x]

lemma sort_flatMap_sort {α : Type} (l : List α) (g : α → List Finding) :
    Finding.sort (l.flatMap fun a => Finding.sort (g a)) = Finding.sort (l.flatMap g) := by
  refine sort_congr fun x => ?_
  simp only [List.filter_flatMap, filter_tied_sort]

lemma sort_map {g : Finding → Finding} (hg : ∀ a b, (g a).le (g b) = a.le b)
    (fs : List Finding) : Finding.sort (fs.map g) = (Finding.sort fs).map g :=
  (List.map_mergeSort fun a _ b _ => (hg a b).symm).symm

theorem filter_sort (p : Finding → Bool) (fs : List Finding) :
    (Finding.sort fs).filter p = Finding.sort (fs.filter p) :=
  StableSort.filter_mergeSort le_trans le_total p fs

/-! ### Places -/

/-- Findings sorted together with the places where they stood; of those that tie, the one that stood
first comes first. -/
def sortPlaced (fs : List Finding) : List (Finding × ℕ) :=
  fs.zipIdx.mergeSort (List.zipIdxLE Finding.le)

lemma map_fst_sortPlaced (fs : List Finding) : (sortPlaced fs).map Prod.fst = Finding.sort fs :=
  List.mergeSort_zipIdx

lemma length_sortPlaced (fs : List Finding) :
    (sortPlaced fs).length = (Finding.sort fs).length := by
  rw [← map_fst_sortPlaced, List.length_map]

lemma getElem?_of_mem_sortPlaced {fs : List Finding} {e : Finding × ℕ} (h : e ∈ sortPlaced fs) :
    fs[e.2]? = some e.1 :=
  List.mem_zipIdx_iff_getElem?.mp (List.mem_mergeSort.mp h)

lemma places_ne (fs : List Finding) : (sortPlaced fs).Pairwise fun a b => a.2 ≠ b.2 := by
  have hperm : ((sortPlaced fs).map Prod.snd).Perm (fs.zipIdx.map Prod.snd) :=
    (List.mergeSort_perm _ _).map Prod.snd
  refine List.pairwise_map.mp (hperm.nodup_iff.mpr ?_)
  rw [List.zipIdx_map_snd]
  exact List.nodup_range'

lemma places_ascend (fs : List Finding) :
    (sortPlaced fs).Pairwise fun a b => tied a.1 b.1 = true → a.2 < b.2 := by
  have hsorted : (sortPlaced fs).Pairwise fun a b => List.zipIdxLE Finding.le a b = true :=
    List.pairwise_mergeSort (List.zipIdxLE_trans le_trans) (List.zipIdxLE_total le_total) _
  refine hsorted.imp₂ (fun a b hab hne htied => ?_) (places_ne fs)
  obtain ⟨h, h'⟩ := (tied_iff_le a.1 b.1).mp htied
  simp only [List.zipIdxLE, h, h', if_true, decide_eq_true_eq] at hab
  exact Nat.lt_of_le_of_ne hab hne

variable (fs : List Finding)

/-- A sorted finding and the place where it stood. -/
def entry (i : Fin (Finding.sort fs).length) : Finding × ℕ :=
  (sortPlaced fs).get (i.cast (length_sortPlaced fs).symm)

lemma fst_entry (i : Fin (Finding.sort fs).length) : (entry fs i).1 = (Finding.sort fs).get i := by
  simp only [entry, ← map_fst_sortPlaced, List.get_eq_getElem, List.getElem_map, Fin.val_cast]

lemma get_entry (i : Fin (Finding.sort fs).length) :
    ∃ h : (entry fs i).2 < fs.length, fs.get ⟨(entry fs i).2, h⟩ = (entry fs i).1 :=
  List.getElem?_eq_some_iff.mp (getElem?_of_mem_sortPlaced (List.get_mem _ _))

def place (i : Fin (Finding.sort fs).length) : Fin fs.length :=
  ⟨(entry fs i).2, (get_entry fs i).1⟩

lemma get_place (i : Fin (Finding.sort fs).length) :
    fs.get (place fs i) = (Finding.sort fs).get i :=
  (get_entry fs i).2.trans (fst_entry fs i)

/-- **Sorting takes each finding from a place of its own, and leaves none behind.** -/
theorem place_bijective : Function.Bijective (place fs) := by
  refine (Fintype.bijective_iff_injective_and_card _).mpr ⟨fun i j hij => ?_, ?_⟩
  · have hsnd : (entry fs i).2 = (entry fs j).2 := congrArg Fin.val hij
    by_contra hne
    rcases Fin.lt_or_lt_of_ne hne with h | h
    · exact List.pairwise_iff_get.mp (places_ne fs) _ _ h hsnd
    · exact List.pairwise_iff_get.mp (places_ne fs) _ _ h hsnd.symm
  · rw [Fintype.card_fin, Fintype.card_fin, (sort_perm fs).length_eq]

/-- **Findings that tie are taken in the order in which they stood.** -/
theorem place_lt_of_tied {i j : Fin (Finding.sort fs).length} (hij : i < j)
    (htied : tied ((Finding.sort fs).get i) ((Finding.sort fs).get j) = true) :
    place fs i < place fs j := by
  rw [← fst_entry, ← fst_entry] at htied
  exact List.pairwise_iff_get.mp (places_ascend fs) _ _ hij htied

end CodeHealth.Proofs.FindingOrder
