import CodeHealth.Proofs.KeyedGroups
import CodeHealth.Proofs.ReportCoherence

/-!
Findings by category, and the category that a summary names.

A finding counts for the category that the catalog gives to its rule, and for none if the catalog
does not know the rule. The summary ends with the category that has the most findings, of several
the first of the alphabet. Its other words are settled by the numbers of findings by severity, so
findings in another order are summed up in the same words.
-/

namespace CodeHealth.Proofs.CategoryGroups

open CodeHealth.Proofs.KeyedGroups CodeHealth.Proofs.ReportCoherence

variable {fs gs : List Finding} {c : String} {n : ℕ}

/-- The findings whose rule the catalog puts into a category. -/
def ofCategory (c : String) (fs : List Finding) : List Finding :=
  having Finding.catalogCategory? c fs

/-- A category has a number of findings, none has more, and of those that have as many it is the
first. -/
structure Leads (fs : List Finding) (c : String) (n : ℕ) : Prop where
  size : (ofCategory c fs).length = n
  pos : 0 < n
  largest : ∀ d, (ofCategory d fs).length ≤ n
  first : ∀ d, (ofCategory d fs).length = n → c ≤ d

/-- What a summary says of the numbers of findings. -/
def figures (counts : SeverityCounts) (files : ℕ) (score : Float) : String :=
  let files := toString files ++ (if files = 1 then " file" else " files")
  let health := "Health score: " ++ Decimal.oneDecimal score ++ "/10."
  if counts.total = 0 then "No issues found across " ++ files ++ ". " ++ health
  else
    let issues := toString counts.total ++ (if counts.total = 1 then " issue" else " issues")
    "Found " ++ issues ++ " (" ++ toString counts.error ++ " errors, " ++ toString counts.warning ++
      " warnings, " ++ toString counts.info ++ " info) across " ++ files ++ ". " ++ health

/-- What a summary says of the category with the most findings. -/
def headline (c : String) (n : ℕ) : String :=
  " Most findings are in " ++ c ++ " (" ++ toString n ++ ")."

/-- A text names the category with the most findings. -/
def NamesCategory (text : String) : Prop := "Most findings are in ".toList <:+: text.toList

/-! ### Groups -/

lemma isSome_catalogCategory? (f : Finding) :
    f.catalogCategory?.isSome = Rule.isKnown f.ruleId := by
  rw [Finding.catalogCategory?, Option.isSome_map, Rule.isKnown]

lemma catalogCategory?_of_find? {f : Finding} {r : Rule.Entry} (h : Rule.find? f.ruleId = some r) :
    f.catalogCategory? = some r.category := by
  rw [Finding.catalogCategory?, h, Option.map_some]

lemma mem_groupByCategory_iff {items : List Finding} :
    (c, items) ∈ (groupByCategory fs).entries ↔ items = ofCategory c fs ∧ items ≠ [] :=
  (groups_groupByCategory fs).mem_iff c items

/-- The categories that have findings, with the numbers of these. -/
def sizes (fs : List Finding) : List (String × ℕ) :=
  (groupByCategory fs).entries.map fun g => (g.1, g.2.length)

lemma mem_sizes : (c, n) ∈ sizes fs ↔ (ofCategory c fs).length = n ∧ 0 < n := by
  rw [sizes, List.mem_map]
  constructor
  · rintro ⟨⟨d, items⟩, hg, heq⟩
    obtain ⟨rfl, rfl⟩ := Prod.mk.inj heq
    obtain ⟨rfl, hne⟩ := mem_groupByCategory_iff.mp hg
    exact ⟨rfl, List.length_pos_iff.mpr hne⟩
  · rintro ⟨rfl, hpos⟩
    exact ⟨(c, ofCategory c fs), mem_groupByCategory_iff.mpr ⟨rfl, List.length_pos_iff.mp hpos⟩, rfl⟩

/-! ### The largest group -/

lemma largestGroup_eq_none {groups : List (String × List Finding)} :
    largestGroup groups = none ↔ groups = [] := by
  cases groups with
  | nil => exact iff_of_true rfl rfl
  | cons g groups =>
    refine iff_of_false ?_ (List.cons_ne_nil g groups)
    rw [largestGroup]
    cases largestGroup groups with
    | none => exact Option.some_ne_none g
    | some h =>
      dsimp only
      split <;> exact Option.some_ne_none _

lemma of_largestGroup {groups : List (String × List Finding)}
    (hsorted : groups.Pairwise fun g h => g.1 < h.1) {g : String × List Finding}
    (h : largestGroup groups = some g) : g ∈ groups ∧
      ∀ g' ∈ groups, g'.2.length ≤ g.2.length ∧ (g'.2.length = g.2.length → g.1 ≤ g'.1) := by
  induction groups generalizing g with
  | nil => cases h
  | cons x groups ih =>
    obtain ⟨hx, hgroups⟩ := List.pairwise_cons.mp hsorted
    rw [largestGroup] at h
    cases hrest : largestGroup groups with
    | none =>
      obtain rfl := largestGroup_eq_none.mp hrest
      rw [hrest] at h
      obtain rfl := Option.some.inj h
      refine ⟨List.mem_cons_self, List.forall_mem_singleton.mpr ⟨le_rfl, fun _ => String.le_refl _⟩⟩
    | some y =>
      rw [hrest] at h
      obtain ⟨hy, hlargest⟩ := ih hgroups hrest
      dsimp only at h
      split_ifs at h with hle <;> obtain rfl := Option.some.inj h
      · -- the group in front is as large as all others, and it is the first
        refine ⟨List.mem_cons_self, List.forall_mem_cons.mpr
          ⟨⟨le_rfl, fun _ => String.le_refl _⟩, fun g' hg' => ?_⟩⟩
        exact ⟨(hlargest g' hg').1.trans hle,
          fun _ => String.not_lt.mp (String.lt_asymm (hx g' hg'))⟩
      · refine ⟨List.mem_cons_of_mem _ hy,
          List.forall_mem_cons.mpr ⟨⟨by omega, by omega⟩, hlargest⟩⟩

lemma leads_of_largestGroup {g : String × List Finding}
    (h : largestGroup (groupByCategory fs).entries = some g) : Leads fs g.1 g.2.length := by
  obtain ⟨hmem, hlargest⟩ := of_largestGroup (groupByCategory fs).sorted h
  obtain ⟨hitems, hne⟩ := mem_groupByCategory_iff.mp hmem
  have hother {d : String} (hd : ofCategory d fs ≠ []) :
      (ofCategory d fs).length ≤ g.2.length ∧ ((ofCategory d fs).length = g.2.length → g.1 ≤ d) :=
    hlargest _ (mem_groupByCategory_iff.mpr ⟨rfl, hd⟩)
  have hpos : 0 < g.2.length := List.length_pos_iff.mpr hne
  refine ⟨by rw [hitems], hpos, fun d => ?_, fun d hd => ?_⟩
  · by_cases hnil : ofCategory d fs = []
    · rw [hnil]
      exact Nat.zero_le _
    · exact (hother hnil).1
  · exact (hother (List.length_pos_iff.mp (hd ▸ hpos))).2 hd

lemma Leads.unique {d : String} {k : ℕ} (h : Leads fs c n) (h' : Leads fs d k) : c = d ∧ n = k := by
  obtain rfl : n = k := le_antisymm (h.size ▸ h'.largest c) (h'.size ▸ h.largest d)
  exact ⟨String.le_antisymm (h.first d h'.size) (h'.first c h.size), rfl⟩

lemma Leads.largestGroup_eq (h : Leads fs c n) :
    ∃ items, items.length = n ∧ largestGroup (groupByCategory fs).entries = some (c, items) := by
  have hgroup : (c, ofCategory c fs) ∈ (groupByCategory fs).entries :=
    mem_groupByCategory_iff.mpr ⟨rfl, List.length_pos_iff.mp (h.size ▸ h.pos)⟩
  cases hlargest : largestGroup (groupByCategory fs).entries with
  | none => exact absurd (largestGroup_eq_none.mp hlargest ▸ hgroup) List.not_mem_nil
  | some g =>
    obtain ⟨rfl, rfl⟩ := h.unique (leads_of_largestGroup hlargest)
    exact ⟨g.2, rfl, rfl⟩

/-- Some category leads exactly if some finding has a rule of the catalog. -/
lemma exists_leads_iff : (∃ c n, Leads fs c n) ↔ ∃ f ∈ fs, Rule.isKnown f.ruleId = true := by
  constructor
  · rintro ⟨c, n, h⟩
    obtain ⟨f, hf⟩ := List.exists_mem_of_length_pos (h.size ▸ h.pos)
    obtain ⟨hmem, hc⟩ := mem_having.mp hf
    exact ⟨f, hmem, by rw [← isSome_catalogCategory?, hc, Option.isSome_some]⟩
  · rintro ⟨f, hf, hknown⟩
    obtain ⟨c, hc⟩ := Option.isSome_iff_exists.mp ((isSome_catalogCategory? f).trans hknown)
    have hgroup := ((groups_groupByCategory fs).exists_group hf hc).1
    cases hlargest : largestGroup (groupByCategory fs).entries with
    | none => exact absurd (largestGroup_eq_none.mp hlargest ▸ hgroup) List.not_mem_nil
    | some g => exact ⟨g.1, g.2.length, leads_of_largestGroup hlargest⟩

/-! ### The summary -/

lemma summarize_eq_figures (fs : List Finding) (files : ℕ) (score : Float) :
    summarize fs files score = figures (.ofFindings fs) files score ++
      ((largestGroup (groupByCategory fs).entries).elim "" fun g => headline g.1 g.2.length) := by
  rw [summarize, figures]
  dsimp only
  by_cases htotal : (SeverityCounts.ofFindings fs).total = 0
  · obtain rfl : fs = [] := List.length_eq_zero_iff.mp htotal
    have hgroups : (groupByCategory []).entries = [] := rfl
    rw [if_pos htotal, if_pos htotal, hgroups, largestGroup, Option.elim_none, String.append_empty]
  · rw [if_neg htotal, if_neg htotal]
    cases largestGroup (groupByCategory fs).entries with
    | none => rfl
    | some g => rfl

/-- Figures say nothing of categories: the letter that this begins with is not in them. -/
lemma notMem_figures (counts : SeverityCounts) (files : ℕ) (score : Float) :
    'M' ∉ (figures counts files score).toList := by
  have hnumber (n : ℕ) : 'M' ∉ Nat.toDigits 10 n := fun h =>
    absurd (Nat.isDigit_of_mem_toDigits (by decide) (by decide) h) (by decide)
  rw [figures, Decimal.oneDecimal]
  split_ifs <;> simp [hnumber]

lemma not_namesCategory_figures (counts : SeverityCounts) (files : ℕ) (score : Float) :
    ¬ NamesCategory (figures counts files score) := by
  intro h
  have hmem : 'M' ∈ "Most findings are in ".toList := by simp
  exact notMem_figures counts files score (List.IsInfix.subset h hmem)

lemma namesCategory_headline (text : String) (c : String) (n : ℕ) :
    NamesCategory (text ++ headline c n) := by
  have hlead : "Most findings are in ".toList <:+: " Most findings are in ".toList :=
    ⟨[' '], [], by simp⟩
  unfold NamesCategory headline
  rw [String.append_assoc, String.append_assoc, String.append_assoc, String.toList_append,
    String.toList_append]
  exact hlead.trans (List.infix_append_of_infix_right (List.prefix_append _ _).isInfix)

lemma Leads.summarize_eq (h : Leads fs c n) (files : ℕ) (score : Float) :
    summarize fs files score = figures (.ofFindings fs) files score ++ headline c n := by
  obtain ⟨items, rfl, hlargest⟩ := h.largestGroup_eq
  rw [summarize_eq_figures, hlargest]
  rfl

lemma summarize_of_unknown (h : ¬ ∃ f ∈ fs, Rule.isKnown f.ruleId = true) (files : ℕ)
    (score : Float) : summarize fs files score = figures (.ofFindings fs) files score := by
  have hlargest : largestGroup (groupByCategory fs).entries = none := by
    refine Option.eq_none_iff_forall_ne_some.mpr fun g hg => h ?_
    exact exists_leads_iff.mp ⟨g.1, g.2.length, leads_of_largestGroup hg⟩
  rw [summarize_eq_figures, hlargest, Option.elim_none, String.append_empty]

lemma namesCategory_summarize_iff (fs : List Finding) (files : ℕ) (score : Float) :
    NamesCategory (summarize fs files score) ↔ ∃ f ∈ fs, Rule.isKnown f.ruleId = true := by
  by_cases hknown : ∃ f ∈ fs, Rule.isKnown f.ruleId = true
  · obtain ⟨c, n, hleads⟩ := exists_leads_iff.mpr hknown
    rw [hleads.summarize_eq]
    exact iff_of_true (namesCategory_headline _ c n) hknown
  · rw [summarize_of_unknown hknown]
    exact iff_of_false (not_namesCategory_figures _ files score) hknown

/-! ### Findings in another order -/

section Perm

variable (h : fs.Perm gs)
include h

lemma length_ofCategory_of_perm (c : String) :
    (ofCategory c fs).length = (ofCategory c gs).length :=
  (h.filter _).length_eq

lemma sizes_of_perm : sizes fs = sizes gs := by
  have hsorted (xs : List Finding) : (sizes xs).Pairwise fun a b => a.1 < b.1 :=
    List.pairwise_map.mpr (groupByCategory xs).sorted
  have hirrefl : Std.Irrefl fun a b : String × ℕ => a.1 < b.1 := ⟨fun _ => String.lt_irrefl _⟩
  have hantisymm : Std.Antisymm fun a b : String × ℕ => a.1 < b.1 :=
    ⟨fun _ _ hab hba => absurd hba (String.lt_asymm hab)⟩
  refine (hsorted fs).eq_of_mem_iff (hsorted gs) fun (c, n) => ?_
  rw [mem_sizes, mem_sizes, length_ofCategory_of_perm h]

lemma ofFindings_of_perm : SeverityCounts.ofFindings fs = .ofFindings gs := by
  simp only [SeverityCounts.ofFindings, h.countP_eq, h.length_eq]

lemma Leads.of_perm (hleads : Leads fs c n) : Leads gs c n where
  size := by rw [← length_ofCategory_of_perm h, hleads.size]
  pos := hleads.pos
  largest d := by rw [← length_ofCategory_of_perm h]; exact hleads.largest d
  first d := by rw [← length_ofCategory_of_perm h]; exact hleads.first d

lemma summarize_of_perm (files : ℕ) (score : Float) :
    summarize fs files score = summarize gs files score := by
  by_cases hknown : ∃ f ∈ fs, Rule.isKnown f.ruleId = true
  · obtain ⟨c, n, hleads⟩ := exists_leads_iff.mpr hknown
    rw [hleads.summarize_eq, (hleads.of_perm h).summarize_eq, ofFindings_of_perm h]
  · have hknown' : ¬ ∃ f ∈ gs, Rule.isKnown f.ruleId = true := by
      simpa only [h.mem_iff] using hknown
    rw [summarize_of_unknown hknown, summarize_of_unknown hknown', ofFindings_of_perm h]

end Perm

/-- **Findings are broken down by the categories of their rules.** For each category that has
findings there is one group, in the order of the alphabet, with the findings whose rule the catalog
puts there, in their order and whatever category they name themselves; so a finding with a known
rule is in one group, and those that are left out have an unknown rule. A summary names a category
exactly if some finding has a known rule, and then it names, with its size, the first of the largest
groups. Neither sizes nor summary depend on the order of the findings. -/
theorem findings_by_category (fs : List Finding) (files : ℕ) (score : Float) :
    let groups := (groupByCategory fs).entries
    let summary := summarize fs files score
    groups.Pairwise (fun g h => g.1 < h.1) ∧
    (∀ c items, (c, items) ∈ groups ↔
      items = fs.filter (fun f => (Rule.find? f.ruleId).map (·.category) = some c) ∧ items ≠ []) ∧
    (∀ f ∈ fs, ∀ r, Rule.find? f.ruleId = some r →
      ∃ items, (r.category, items) ∈ groups ∧ ∀ g ∈ groups, f ∈ g.2 ↔ g = (r.category, items)) ∧
    (groups.flatMap (·.2)).Perm (fs.filter fun f => Rule.isKnown f.ruleId) ∧
    (breakdown fs files).byCategory.entries = sizes fs ∧
    (NamesCategory summary ↔ ∃ f ∈ fs, Rule.isKnown f.ruleId = true) ∧
    (NamesCategory summary ↔ ∃ c n, Leads fs c n) ∧
    (∀ c n, Leads fs c n → summary = figures (.ofFindings fs) files score ++ headline c n) ∧
    ∀ gs, fs.Perm gs → sizes gs = sizes fs ∧ summarize gs files score = summary := by
  have hgroups := groups_groupByCategory fs
  have hnames := namesCategory_summarize_iff fs files score
  refine ⟨(groupByCategory fs).sorted, fun c items => mem_groupByCategory_iff, ?_, ?_,
    entries_byCategory fs files, hnames, hnames.trans exists_leads_iff.symm,
    fun c n hleads => hleads.summarize_eq files score, fun gs hperm =>
    ⟨(sizes_of_perm hperm).symm, (summarize_of_perm hperm files score).symm⟩⟩
  · intro f hf r hr
    exact ⟨_, hgroups.exists_group hf (catalogCategory?_of_find? hr)⟩
  · have hperm := hgroups.flatMap_perm
    simpa only [isSome_catalogCategory?] using hperm

/-- Of two categories with as many findings the first of the alphabet leads. -/
example : (largestGroup (groupByCategory [{ (default : Finding) with ruleId := "loose-equality" },
    { (default : Finding) with ruleId := "no-var" }]).entries).map (·.1) = some "best-practices" := by
  decide +kernel

end CodeHealth.Proofs.CategoryGroups
