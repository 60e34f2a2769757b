import CodeHealth.Proofs.Evaluation
import Mathlib.Data.List.Perm.Basic

/-!
Lists in groups.

The groups of a list by a key hold, for each key that occurs, the elements with this key in their
order; elements without a key are in no group. Laid out one after the other the groups are the
elements that have a key, in another order.
-/

namespace CodeHealth.Proofs.KeyedGroups

open CodeHealth.Proofs.Evaluation

variable {α κ : Type} [DecidableEq κ] {key : α → Option κ} {xs : List α}
  {groups : List (κ × List α)}

/-- The elements that have a key, in their order. -/
def having (key : α → Option κ) (k : κ) (xs : List α) : List α := xs.filter fun x => key x = some k

structure Groups (key : α → Option κ) (xs : List α) (groups : List (κ × List α)) : Prop where
  nodup : (groups.map (·.1)).Nodup
  mem_iff : ∀ k items, (k, items) ∈ groups ↔ items = having key k xs ∧ items ≠ []

lemma mem_having {k : κ} {x : α} : x ∈ having key k xs ↔ x ∈ xs ∧ key x = some k := by
  simp [having]

lemma having_having (key : α → Option κ) (k k' : κ) (xs : List α) :
    having key k (having key k' xs) = if k = k' then having key k xs else [] := by
  rw [having, having, List.filter_filter]
  split_ifs with h
  · simp [having, h]
  · refine List.filter_eq_nil_iff.mpr fun x _ hx => ?_
    simp only [Bool.and_eq_true, decide_eq_true_eq] at hx
    exact h (Option.some.inj (hx.1.symm.trans hx.2))

namespace Groups

variable (h : Groups key xs groups)
include h

lemma exists_group {x : α} {k : κ} (hx : x ∈ xs) (hk : key x = some k) :
    (k, having key k xs) ∈ groups ∧ ∀ g ∈ groups, x ∈ g.2 ↔ g = (k, having key k xs) := by
  have hmem : x ∈ having key k xs := mem_having.mpr ⟨hx, hk⟩
  refine ⟨(h.mem_iff k _).mpr ⟨rfl, List.ne_nil_of_mem hmem⟩, fun g hg => ⟨fun hxg => ?_, ?_⟩⟩
  · obtain ⟨k', items⟩ := g
    obtain ⟨rfl, -⟩ := (h.mem_iff k' items).mp hg
    obtain rfl := Option.some.inj ((mem_having.mp hxg).2.symm.trans hk)
    rfl
  · rintro rfl
    exact hmem

lemma having_flatMap (k : κ) : having key k (groups.flatMap (·.2)) = having key k xs := by
  have hgroup : ∀ g ∈ groups, having key k g.2 = if k = g.1 then having key k xs else [] := by
    intro g hg
    rw [((h.mem_iff g.1 g.2).mp hg).1, having_having]
  have hflat : having key k (groups.flatMap (·.2)) = groups.flatMap fun g => having key k g.2 :=
    List.filter_flatMap
  rw [hflat]
  by_cases hnil : having key k xs = []
  · rw [hnil]
    refine List.flatMap_eq_nil_iff.mpr fun g hg => ?_
    simp [hgroup g hg, hnil]
  · have hmem : (k, having key k xs) ∈ groups := (h.mem_iff k _).mpr ⟨rfl, hnil⟩
    rw [flatMap_eq_of_key h.nodup hmem fun g hg hne => by rw [hgroup g hg, if_neg (Ne.symm hne)],
      having_having, if_pos rfl]

/-- **Laid out, the groups are the elements that have a key**, each as often as it was there. -/
theorem flatMap_perm [DecidableEq α] :
    (groups.flatMap (·.2)).Perm (xs.filter fun x => (key x).isSome) := by
  rw [List.perm_iff_count]
  intro x
  cases hk : key x with
  | some k =>
    have hcount := congrArg (List.count x) (h.having_flatMap k)
    rwa [having, having, List.count_filter (by simp [hk]), List.count_filter (by simp [hk]),
      ← List.count_filter (p := fun x => (key x).isSome) (l := xs) (by simp [hk])] at hcount
  | none =>
    have hgroups : x ∉ groups.flatMap (·.2) := by
      intro hx
      obtain ⟨g, hg, hxg⟩ := List.mem_flatMap.mp hx
      rw [((h.mem_iff g.1 g.2).mp hg).1] at hxg
      exact absurd (hk.symm.trans (mem_having.mp hxg).2) nofun
    rw [List.count_eq_zero_of_not_mem hgroups, List.count_eq_zero_of_not_mem (by simp [hk])]

end Groups

/-! ### Groups in a table -/

section Tables

variable {name : α → Option String} (vs : List α)

lemma groupBy_concat (v : α) : KeyMap.groupBy name (vs ++ [v]) =
    match name v with
    | some k => (KeyMap.groupBy name vs).push k v
    | none => KeyMap.groupBy name vs := by
  rw [KeyMap.groupBy, List.foldl_concat]
  rfl

lemma having_concat (k : String) (v : α) :
    having name k (vs ++ [v]) = having name k vs ++ if name v = some k then [v] else [] := by
  rw [having, List.filter_append, having, List.filter_cons]
  simp

lemma get?_groupBy (k : String) : (KeyMap.groupBy name vs).get? k =
    if having name k vs = [] then none else some (having name k vs) := by
  induction vs using List.reverseRecOn with
  | nil => rfl
  | append_singleton vs v ih =>
    rw [groupBy_concat, having_concat]
    cases hv : name v with
    | none => simp [ih]
    | some k' =>
      dsimp only
      rw [KeyMap.push, KeyMap.get?_insert]
      by_cases hk : k = k'
      · subst hk
        rw [ih]
        by_cases hnil : having name k vs = [] <;> simp [hnil]
      · simp [hk, Ne.symm hk, ih]

theorem groups_groupBy : Groups name vs (KeyMap.groupBy name vs).entries where
  nodup := List.pairwise_map.mpr ((KeyMap.groupBy name vs).sorted.imp String.ne_of_lt)
  mem_iff k items := by
    rw [KeyMap.mem_entries_iff, get?_groupBy]
    by_cases h : having name k vs = []
    · simp [h]
    · rw [if_neg h, Option.some.injEq]
      constructor
      · rintro rfl
        exact ⟨rfl, h⟩
      · exact fun hitems => hitems.1.symm

end Tables

end CodeHealth.Proofs.KeyedGroups
