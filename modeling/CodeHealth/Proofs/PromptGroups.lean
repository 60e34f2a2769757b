import CodeHealth.Advice.Prompt
import CodeHealth.Proofs.KeyedGroups

/-!
The findings of a report as a prompt groups them.

There is one group for each rule that has findings, and it holds the findings of the rule in their
order. The groups stand by their size, and groups of one size by the id of their rule. Laid out one
after the other they are the findings sorted by how often their rule was violated.
-/

namespace CodeHealth.Proofs.PromptGroups

open CodeHealth.Advice CodeHealth.Proofs.FindingOrder CodeHealth.Proofs.KeyedGroups

def ofRule (id : String) (fs : List Finding) : List Finding := fs.filter (·.ruleId == id)

def sameRule (a b : Finding) : Bool := b.ruleId == a.ruleId

/-- How many findings have the rule of a finding. -/
def frequency (fs : List Finding) (f : Finding) : ℕ := (ofRule f.ruleId fs).length

/-- A finding may be shown before another: its rule has more findings, or as many and an id that
does not come later. -/
def Before (fs : List Finding) (a b : Finding) : Prop :=
  frequency fs b < frequency fs a ∨ frequency fs a = frequency fs b ∧ a.ruleId ≤ b.ruleId

def byGroup (fs : List Finding) : List Finding := (rankedGroups fs).flatMap (·.2)

variable (fs : List Finding)

/-! ### Groups -/

lemma having_ruleId (id : String) :
    having (fun f : Finding => some f.ruleId) id fs = ofRule id fs :=
  List.filter_congr fun f _ => by simp [beq_eq_decide]

lemma mem_rankedGroups {g : String × List Finding} :
    g ∈ rankedGroups fs ↔ g.2 = ofRule g.1 fs ∧ g.2 ≠ [] := by
  rw [rankedGroups, List.mem_mergeSort, groupByRule, ← having_ruleId]
  exact (groups_groupBy fs).mem_iff g.1 g.2

lemma nodup_rankedGroups : ((rankedGroups fs).map (·.1)).Nodup :=
  ((List.mergeSort_perm (groupByRule fs).entries groupLe).map (·.1)).nodup_iff.mpr
    (groups_groupBy fs).nodup

lemma rules_rankedGroups :
    ((rankedGroups fs).map (·.1)).Perm (fs.map (·.ruleId)).dedup := by
  refine (List.perm_ext_iff_of_nodup (nodup_rankedGroups fs) (List.nodup_dedup _)).mpr fun id => ?_
  rw [List.mem_dedup, List.mem_map, List.mem_map]
  constructor
  · rintro ⟨g, hg, rfl⟩
    obtain ⟨hitems, hne⟩ := (mem_rankedGroups fs).mp hg
    obtain ⟨f, hf⟩ := List.exists_mem_of_ne_nil _ (hitems ▸ hne)
    obtain ⟨hmem, hid⟩ := List.mem_filter.mp hf
    exact ⟨f, hmem, beq_iff_eq.mp hid⟩
  · rintro ⟨f, hf, rfl⟩
    have hmem : f ∈ ofRule f.ruleId fs := List.mem_filter.mpr ⟨hf, beq_self_eq_true _⟩
    exact ⟨(f.ruleId, ofRule f.ruleId fs),
      (mem_rankedGroups fs).mpr ⟨rfl, List.ne_nil_of_mem hmem⟩, rfl⟩

lemma length_rankedGroups :
    (rankedGroups fs).length = (fs.map (·.ruleId)).dedup.length := by
  rw [← List.length_map (·.1), (rules_rankedGroups fs).length_eq]

lemma groupLe_iff (a b : String × List Finding) : groupLe a b = true ↔
    b.2.length < a.2.length ∨ a.2.length = b.2.length ∧ a.1 ≤ b.1 := by
  simp [groupLe]

lemma groupLe_trans (a b c : String × List Finding) (hab : groupLe a b = true)
    (hbc : groupLe b c = true) : groupLe a c = true := by
  rw [groupLe_iff] at *
  rcases hab with hab | ⟨hab, hid⟩ <;> rcases hbc with hbc | ⟨hbc, hid'⟩
  · exact .inl (by omega)
  · exact .inl (by omega)
  · exact .inl (by omega)
  · exact .inr ⟨hab.trans hbc, String.le_trans hid hid'⟩

lemma groupLe_total (a b : String × List Finding) : (groupLe a b || groupLe b a) = true := by
  rw [Bool.or_eq_true, groupLe_iff, groupLe_iff]
  rcases Nat.lt_trichotomy a.2.length b.2.length with h | h | h
  · exact .inr (.inl h)
  · exact (String.le_total a.1 b.1).imp (.inr ⟨h, ·⟩) (.inr ⟨h.symm, ·⟩)
  · exact .inl (.inl h)

lemma pairwise_rankedGroups : (rankedGroups fs).Pairwise fun a b => groupLe a b = true :=
  List.pairwise_mergeSort groupLe_trans groupLe_total _

/-! ### Findings group by group -/

lemma groups_rankedGroups : Groups (fun f : Finding => some f.ruleId) fs (rankedGroups fs) where
  nodup := nodup_rankedGroups fs
  mem_iff id items := by rw [mem_rankedGroups, having_ruleId]

lemma ofRule_byGroup (id : String) : ofRule id (byGroup fs) = ofRule id fs := by
  rw [← having_ruleId, ← having_ruleId, byGroup]
  exact (groups_rankedGroups fs).having_flatMap id

lemma byGroup_perm : (byGroup fs).Perm fs := by
  have hall : (fs.filter fun f => (some f.ruleId).isSome) = fs :=
    List.filter_eq_self.mpr fun _ _ => rfl
  exact (groups_rankedGroups fs).flatMap_perm.trans (.of_eq hall)

lemma pairwise_byGroup : (byGroup fs).Pairwise (Before fs) := by
  have hfreq : ∀ g ∈ rankedGroups fs, ∀ f ∈ g.2, f.ruleId = g.1 ∧ frequency fs f = g.2.length := by
    intro g hg f hf
    have hitems := ((mem_rankedGroups fs).mp hg).1
    rw [hitems] at hf
    have hid : f.ruleId = g.1 := by simpa using (List.mem_filter.mp hf).2
    exact ⟨hid, by rw [frequency, hid, hitems]⟩
  refine List.pairwise_flatMap.mpr ⟨fun g hg => ?_, ?_⟩
  · -- within a group all findings have one rule
    refine List.pairwise_of_forall_mem_list fun a ha b hb => .inr ?_
    obtain ⟨hida, hfa⟩ := hfreq g hg a ha
    obtain ⟨hidb, hfb⟩ := hfreq g hg b hb
    have hid : a.ruleId = b.ruleId := hida.trans hidb.symm
    exact ⟨hfa.trans hfb.symm, hid ▸ String.le_refl _⟩
  · refine (pairwise_rankedGroups fs).imp_of_mem fun {g g'} hg hg' hle a ha b hb => ?_
    obtain ⟨hida, hfa⟩ := hfreq g hg a ha
    obtain ⟨hidb, hfb⟩ := hfreq g' hg' b hb
    rw [Before, hfa, hfb, hida, hidb]
    exact (groupLe_iff g g').mp hle

lemma byGroup_eq {gs : List Finding} (hrules : ∀ id, ofRule id gs = ofRule id fs)
    (horder : gs.Pairwise (Before fs)) : byGroup fs = gs := by
  have hties : ∀ f, (byGroup fs).filter (sameRule f) = gs.filter (sameRule f) :=
    fun f => (ofRule_byGroup fs f.ruleId).trans (hrules f.ruleId).symm
  refine StableSort.eq_of_pairwise_of_ties (fun f => beq_self_eq_true f.ruleId) ?_
    (pairwise_byGroup fs) horder
    hties
  -- findings that may stand in either order have one rule
  rintro a b (hab | ⟨hab, hid⟩) (hba | ⟨hba, hid'⟩)
  · omega
  · omega
  · omega
  · exact beq_iff_eq.mpr (String.le_antisymm hid' hid)

/-- **Grouping leaves a list as it is** if and only if the list is in the order of groups. -/
theorem byGroup_eq_iff : byGroup fs = fs ↔ fs.Pairwise (Before fs) := by
  constructor
  · intro h
    have := pairwise_byGroup fs
    rwa [h] at this
  · exact byGroup_eq fs fun _ => rfl

end CodeHealth.Proofs.PromptGroups
