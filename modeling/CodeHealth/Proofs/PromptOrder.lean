import CodeHealth.Advice.Enhancement
import CodeHealth.Proofs.PromptGroups
import CodeHealth.Proofs.Provenance

/-!
The order in which a prompt describes findings, and the one in which suggestions are given out.

A prompt asks for one suggestion for each finding, in its own order, which is that of groups.
Suggestions are given to the findings in the order of the report, which is that of places. If
nothing is cut from the prompt, each suggestion of a reply that does as it was asked comes to the
finding that it was written for exactly if the findings of the report stand group by group.
-/

namespace CodeHealth.Proofs.PromptOrder

open CodeHealth.Advice CodeHealth.Proofs.PromptGroups CodeHealth.Proofs.Provenance

/-- Nothing is cut from a prompt: there are not too many rules, and no rule has too many
findings. -/
structure Uncut (fs : List Finding) : Prop where
  rules : (fs.map (·.ruleId)).dedup.length ≤ maxRules
  occurrences : ∀ id, (ofRule id fs).length ≤ maxOccurrences

def plainEntries (ls : List String) : List (String × Option Finding) := ls.map fun l => (l, none)

/-- The lines of a rule, each with the finding that it describes. -/
def groupEntries (g : String × List Finding) : List (String × Option Finding) :=
  (groupHeading g, none) :: (g.2.take maxOccurrences).map (fun f => (occurrenceLine f, some f)) ++
    plainEntries (groupRemainder g.2)

/-- The lines of a prompt, each with the finding that it describes. -/
def promptEntries (r : Report) : List (String × Option Finding) :=
  let groups := rankedGroups r.findings
  plainEntries (projectLines r ++ scoreLines r ++
    if groups.isEmpty then ["No findings."] else []) ++
  (groups.take maxRules).flatMap groupEntries ++
  plainEntries (ruleRemainder groups.length ++ ["", reportQuestion])

/-- The findings that a prompt describes, in the order of its lines. -/
def described (r : Report) : List Finding := (promptEntries r).filterMap (·.2)

def advised (advise : Finding → String) (f : Finding) : Finding :=
  { f with suggestion := some (advise f) }

/-- **Suggestions that are given in the order of the prompt come to the findings that they were
written for**, whatever is suggested for each finding. -/
def AttachesInOrder (settings : Settings) (r : Report) : Prop :=
  ∀ (advise : Finding → String) (e : Extraction),
    e.payload.suggestions = (described r).map advise →
      (reconcile settings r (.ok e)).findings = r.findings.map (advised advise)

/-! ### Lines of a prompt -/

lemma map_fst_plainEntries (ls : List String) : (plainEntries ls).map Prod.fst = ls := by
  simp [plainEntries, Function.comp_def]

lemma map_fst_groupEntries (g : String × List Finding) :
    (groupEntries g).map Prod.fst = groupLines g := by
  simp [groupEntries, groupLines, map_fst_plainEntries, Function.comp_def]

lemma reportPrompt_eq (r : Report) :
    reportPrompt r = textOfLines ((promptEntries r).map Prod.fst) := by
  simp [reportPrompt, findingLines, promptEntries, map_fst_plainEntries, List.map_flatMap,
    map_fst_groupEntries]

lemma not_mem_plainEntries {ls : List String} {l : String} {f : Finding} :
    (l, some f) ∉ plainEntries ls := by
  simp [plainEntries]

lemma line_of_mem_promptEntries {r : Report} {l : String} {f : Finding}
    (h : (l, some f) ∈ promptEntries r) : l = occurrenceLine f := by
  rw [promptEntries, List.mem_append, List.mem_append] at h
  rcases h with (h | h) | h
  · exact absurd h not_mem_plainEntries
  · obtain ⟨g, -, hg⟩ := List.mem_flatMap.mp h
    rw [groupEntries, List.mem_append, List.mem_cons] at hg
    rcases hg with (hg | hg) | hg
    · cases hg
    · obtain ⟨f', -, hf⟩ := List.mem_map.mp hg
      cases hf
      rfl
    · exact absurd hg not_mem_plainEntries
  · exact absurd h not_mem_plainEntries

lemma filterMap_plainEntries (ls : List String) : (plainEntries ls).filterMap (·.2) = [] := by
  simp [plainEntries, List.filterMap_map]

lemma filterMap_groupEntries (g : String × List Finding) :
    (groupEntries g).filterMap (·.2) = g.2.take maxOccurrences := by
  rw [groupEntries, List.cons_append, List.filterMap_cons_none rfl, List.filterMap_append,
    filterMap_plainEntries, List.filterMap_map, List.append_nil]
  exact List.filterMap_some

lemma described_eq (r : Report) : described r =
    ((rankedGroups r.findings).take maxRules).flatMap fun g => g.2.take maxOccurrences := by
  simp only [described, promptEntries, List.filterMap_append, filterMap_plainEntries,
    List.nil_append, List.append_nil, List.filterMap_flatMap, filterMap_groupEntries]

/-- If nothing is cut, all findings are described, group by group. -/
lemma described_eq_byGroup {r : Report} (h : Uncut r.findings) :
    described r = byGroup r.findings := by
  have hrules : (rankedGroups r.findings).take maxRules = rankedGroups r.findings :=
    List.take_of_length_le (length_rankedGroups r.findings ▸ h.rules)
  rw [described_eq, hrules, byGroup]
  refine List.flatMap_congr fun g hg => List.take_of_length_le ?_
  rw [((mem_rankedGroups _).mp hg).1]
  exact h.occurrences g.1

/-! ### Giving out suggestions -/

lemma findings_reconcile (settings : Settings) (r : Report) (e : Extraction) :
    (reconcile settings r (.ok e)).findings = suggestAll r.findings e.payload.suggestions := rfl

lemma suggestAll_map (advise : Finding → String) (fs : List Finding) :
    suggestAll fs (fs.map advise) = fs.map (advised advise) := by
  induction fs with
  | nil => rfl
  | cons f fs ih => simp [suggestAll, advised, ih]

/-- Suggestions come to their findings only if both stand in one order. -/
lemma eq_of_suggestAll {fs gs : List Finding} (hlen : gs.length = fs.length)
    (h : ∀ advise : Finding → String, suggestAll fs (gs.map advise) = fs.map (advised advise)) :
    gs = fs := by
  refine List.ext_getElem hlen fun i hg hf => ?_
  -- a suggestion of its own for the finding at this place of the report
  have hi := congrArg (·[i]?) (h fun f => if f = fs[i] then "here" else "elsewhere")
  simp only [getElem?_suggestAll, List.getElem?_map, List.getElem?_eq_getElem hf,
    List.getElem?_eq_getElem hg, Option.map_some, advised, Option.getD_some, Option.some.injEq,
    Finding.mk.injEq, true_and, and_true, if_true] at hi
  by_contra hne
  simp [hne] at hi

lemma attachesInOrder_iff (settings : Settings) {r : Report} (h : Uncut r.findings) :
    AttachesInOrder settings r ↔ byGroup r.findings = r.findings := by
  rw [AttachesInOrder, described_eq_byGroup h]
  constructor
  · intro hattach
    refine eq_of_suggestAll (byGroup_perm r.findings).length_eq fun advise => ?_
    exact hattach advise ⟨⟨none, [], (byGroup r.findings).map advise⟩, .wholeResponse⟩ rfl
  · intro heq advise e he
    rw [findings_reconcile, he, heq, suggestAll_map]

/-- **When the order of a prompt is that of the report.** If nothing is cut, the lines that describe
findings describe all of them, sorted by how often their rule was violated. The finding that the
line at a place describes is the finding at this place of the report, and suggestions in the order
of the prompt come to the findings that they were written for, exactly if the findings of the report
stand in that order already. -/
theorem prompt_order_agrees_iff (settings : Settings) (r : Report) (h : Uncut r.findings) :
    reportPrompt r = textOfLines ((promptEntries r).map Prod.fst) ∧
    (∀ l f, (l, some f) ∈ promptEntries r → l = occurrenceLine f) ∧
    (described r).Perm r.findings ∧ (described r).Pairwise (Before r.findings) ∧
    (∀ id, ofRule id (described r) = ofRule id r.findings) ∧
    ((∀ i : ℕ, (described r)[i]? = r.findings[i]?) ↔
      r.findings.Pairwise (Before r.findings)) ∧
    (AttachesInOrder settings r ↔ r.findings.Pairwise (Before r.findings)) := by
  rw [attachesInOrder_iff settings h, byGroup_eq_iff, described_eq_byGroup h]
  refine ⟨reportPrompt_eq r, fun l f => line_of_mem_promptEntries, byGroup_perm _,
    pairwise_byGroup _, ofRule_byGroup _, ?_, Iff.rfl⟩
  rw [← byGroup_eq_iff]
  exact ⟨List.ext_getElem?, fun heq i => by rw [heq]⟩

def findingAt (id : String) (line : ℕ) : Finding :=
  ⟨id, "m", .warning, ⟨"a.ts"⟩, line, 1, none, none⟩

/-- A report in which the finding of a rare rule comes before those of a frequent one. -/
def rareFirstReport : Report :=
  { (default : Report) with
    findings := [findingAt "no-var" 1, findingAt "loose-equality" 2, findingAt "loose-equality" 3] }

/-- A report in which the findings of the frequent rule come first. -/
def groupedReport : Report :=
  { (default : Report) with
    findings := [findingAt "loose-equality" 1, findingAt "loose-equality" 2, findingAt "no-var" 3] }

lemma uncut_of_length_le {fs : List Finding} (hlen : fs.length ≤ maxOccurrences) : Uncut fs where
  rules := by
    have := (List.dedup_sublist (fs.map (·.ruleId))).length_le
    rw [List.length_map] at this
    exact this.trans (hlen.trans (by decide))
  occurrences _ := (List.length_filter_le _ _).trans hlen

theorem prompt_order_agrees_iff_grouped :
    Uncut groupedReport.findings ∧ AttachesInOrder Settings.default groupedReport := by
  have hcut : Uncut groupedReport.findings := uncut_of_length_le (by decide)
  have horder : groupedReport.findings.Pairwise (Before groupedReport.findings) := by
    unfold Before
    decide
  have hagree := prompt_order_agrees_iff Settings.default groupedReport hcut
  exact ⟨hcut, hagree.2.2.2.2.2.2.mpr horder⟩

/-- **Grouping breaks up the order of places**, although nothing is cut: the first line describes
the second finding, and suggestions in the order of the prompt come to others than they were meant
for. -/
theorem prompt_order_rareFirst :
    Uncut rareFirstReport.findings ∧
      (described rareFirstReport)[0]? = some (findingAt "loose-equality" 2) ∧
      rareFirstReport.findings[0]? = some (findingAt "no-var" 1) ∧
      ¬ AttachesInOrder Settings.default rareFirstReport := by
  have hcut : Uncut rareFirstReport.findings := uncut_of_length_le (by decide)
  have horder : byGroup rareFirstReport.findings =
      [findingAt "loose-equality" 2, findingAt "loose-equality" 3, findingAt "no-var" 1] := by
    refine byGroup_eq _ (fun id => ?_) (by unfold Before; decide)
    by_cases hfrequent : "loose-equality" = id
    · subst hfrequent
      rfl
    · simp [rareFirstReport, ofRule, findingAt, List.filter_cons, hfrequent]
  refine ⟨hcut, ?_, rfl, ?_⟩
  · rw [described_eq_byGroup hcut, horder]
    rfl
  · rw [attachesInOrder_iff _ hcut, horder]
    decide

end CodeHealth.Proofs.PromptOrder
