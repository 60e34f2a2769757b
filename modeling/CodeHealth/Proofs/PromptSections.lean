import CodeHealth.Proofs.PromptGroups
import CodeHealth.Proofs.ProseReading
import Mathlib

/-!
What a prompt tells of the findings.

Each rule with findings has a section, or it is one of those that are counted at the end; each
finding of a section is listed, or it is one of those that are counted there. The sections stand by
the number of their findings, so no rule that is left out has more of them than one that is shown.
-/

namespace CodeHealth.Proofs.PromptSections

open CodeHealth.Advice CodeHealth.Proofs.PromptGroups CodeHealth.Proofs.ProseReading

structure RuleSection where
  rule : String
  count : ℕ
  severity : Severity
  /-- The findings that are listed, each with what is shown of its message. -/
  listed : List (Finding × String)
  /-- The number of findings that are said to be left out. -/
  more : Option ℕ

def RuleSection.lines (s : RuleSection) : List String :=
  ("### " ++ s.rule ++ " (" ++ (toString s.count ++ " occurrence" ++
    (if s.count = 1 then "" else "s")) ++ ", " ++ s.severity.name ++ ")") ::
  (s.listed.map fun e => "- " ++ e.1.file.text ++ ":" ++ toString e.1.line ++ ":" ++
    toString e.1.column ++ " " ++ e.2) ++
  s.more.toList.map fun k => "- (and " ++ toString k ++ " more)"

/-- A text shows a message in at most two hundred characters: all of it if it is no longer, and
otherwise what it begins with and three dots. -/
structure Shows (text message : String) : Prop where
  length_le : text.length ≤ 200
  short : message.length ≤ 200 → text = message
  long : 200 < message.length → text.toList = message.toList.take 197 ++ ['.', '.', '.']

/-- A section tells of all findings of its rule: the first three are listed in their order, and the
others are counted if there are any. -/
structure RuleSection.Accounts (fs : List Finding) (s : RuleSection) : Prop where
  count : s.count = (ofRule s.rule fs).length
  severity : (ofRule s.rule fs).head?.map (·.severity) = some s.severity
  listed : s.listed.map (·.1) = (ofRule s.rule fs).take 3
  messages : ∀ e ∈ s.listed, Shows e.2 e.1.message
  more : ∀ k, s.more = some k ↔ 3 < s.count ∧ k = s.count - 3

/-- A rule stands before another: it has more findings, or as many and the lesser id. -/
def RuleBefore (fs : List Finding) (a b : String) : Prop :=
  (ofRule b fs).length < (ofRule a fs).length ∨
    (ofRule a fs).length = (ofRule b fs).length ∧ a < b

/-! ### One section -/

def shownMessage (f : Finding) : String := String.ofList (truncate maxMessage f.message.toList)

lemma shows_shownMessage (f : Finding) : Shows (shownMessage f) f.message where
  length_le := by
    rw [shownMessage, String.length_ofList]
    exact length_truncate (by decide) _
  short h := by
    rw [← String.length_toList] at h
    rw [shownMessage, truncate, maxMessage, if_pos h, String.ofList_toList]
  long h := by
    rw [← String.length_toList] at h
    rw [shownMessage, String.toList_ofList, truncate, maxMessage, if_neg (Nat.not_le.mpr h)]

def sectionOf (g : String × List Finding) : RuleSection where
  rule := g.1
  count := g.2.length
  severity := (g.2.head?.map (·.severity)).getD .info
  listed := (g.2.take maxOccurrences).map fun f => (f, shownMessage f)
  more := if maxOccurrences < g.2.length then some (g.2.length - maxOccurrences) else none

lemma lines_sectionOf {g : String × List Finding} (h : g.2 ≠ []) :
    groupLines g = (sectionOf g).lines := by
  obtain ⟨id, items⟩ := g
  obtain ⟨f, items, rfl⟩ := List.exists_cons_of_ne_nil h
  have hlisted (fs : List Finding) : fs.map occurrenceLine =
      (fs.map fun f => (f, shownMessage f)).map fun e => "- " ++ e.1.file.text ++ ":" ++
        toString e.1.line ++ ":" ++ toString e.1.column ++ " " ++ e.2 := by
    rw [List.map_map]
    rfl
  rw [groupLines, RuleSection.lines, sectionOf, hlisted, groupRemainder]
  congr 1
  split_ifs <;> rfl

lemma accounts_sectionOf {fs : List Finding} {g : String × List Finding}
    (h : g ∈ rankedGroups fs) : (sectionOf g).Accounts fs := by
  obtain ⟨id, items⟩ := g
  obtain ⟨hitems, hne⟩ := (mem_rankedGroups fs).mp h
  dsimp only at hitems hne
  subst hitems
  obtain ⟨f, hf⟩ := Option.isSome_iff_exists.mp (List.isSome_head?.mpr hne)
  refine ⟨rfl, ?_, ?_, ?_, fun k => ?_⟩
  · simp [sectionOf, hf]
  · simp [sectionOf, maxOccurrences, Function.comp_def]
  · intro e he
    obtain ⟨f, -, rfl⟩ := List.mem_map.mp he
    exact shows_shownMessage f
  · rw [sectionOf, maxOccurrences]
    split_ifs with hmore
    · simp [hmore, eq_comm]
    · simp [hmore]

/-! ### All sections -/

section Sections

variable (fs : List Finding)

def shownSections : List RuleSection := ((rankedGroups fs).take maxRules).map sectionOf

def hiddenRules : List String := ((rankedGroups fs).drop maxRules).map (·.1)

lemma rules_shown_hidden :
    (shownSections fs).map (·.rule) ++ hiddenRules fs = (rankedGroups fs).map (·.1) := by
  rw [shownSections, hiddenRules, List.map_map]
  change ((rankedGroups fs).take maxRules).map (·.1) ++ _ = _
  rw [← List.map_append, List.take_append_drop]

lemma length_shownSections :
    (shownSections fs).length = min 15 (fs.map (·.ruleId)).dedup.length := by
  rw [shownSections, List.length_map, List.length_take, length_rankedGroups, maxRules]

lemma accounts_of_mem {s : RuleSection} (h : s ∈ shownSections fs) : s.Accounts fs := by
  obtain ⟨g, hg, rfl⟩ := List.mem_map.mp h
  exact accounts_sectionOf (List.mem_of_mem_take hg)

lemma pairwise_rules : ((rankedGroups fs).map (·.1)).Pairwise (RuleBefore fs) := by
  have hdistinct := List.pairwise_map.mp (nodup_rankedGroups fs)
  refine List.pairwise_map.mpr (((pairwise_rankedGroups fs).and hdistinct).imp_of_mem ?_)
  rintro g g' hg hg' ⟨hle, hne⟩
  rw [RuleBefore, ← ((mem_rankedGroups fs).mp hg).1, ← ((mem_rankedGroups fs).mp hg').1]
  refine ((groupLe_iff g g').mp hle).imp_right fun ⟨hcount, hid⟩ => ⟨hcount, ?_⟩
  by_contra hlt
  exact hne (String.le_antisymm hid (String.not_lt.mp hlt))

lemma sum_counts :
    (((rankedGroups fs).map (·.1)).map fun id => (ofRule id fs).length).sum = fs.length := by
  have hcounts : ((rankedGroups fs).map (·.1)).map (fun id => (ofRule id fs).length) =
      (rankedGroups fs).map fun g => g.2.length := by
    rw [List.map_map]
    exact List.map_congr_left fun g hg => congrArg _ ((mem_rankedGroups fs).mp hg).1.symm
  rw [hcounts, ← List.length_flatMap]
  exact (byGroup_perm fs).length_eq

/-- The number of rules that is said to be left out. -/
def notShown : Option ℕ :=
  let n := (fs.map (·.ruleId)).dedup.length
  if 15 < n then some (n - 15) else none

lemma notShown_eq_some {m : ℕ} : notShown fs = some m ↔
    15 < (fs.map (·.ruleId)).dedup.length ∧ m = (fs.map (·.ruleId)).dedup.length - 15 := by
  rw [notShown]
  split_ifs with hmany
  · simp [hmany, eq_comm]
  · simp [hmany]

lemma ruleRemainder_eq : ruleRemainder (fs.map (·.ruleId)).dedup.length =
    (notShown fs).toList.map fun m => "(" ++ toString m ++ " more rules not shown)" := by
  rw [ruleRemainder, notShown, maxRules]
  split_ifs <;> rfl

lemma findingLines_eq : findingLines fs =
    (if fs = [] then ["No findings."] else []) ++ (shownSections fs).flatMap RuleSection.lines ++
      (notShown fs).toList.map fun m => "(" ++ toString m ++ " more rules not shown)" := by
  have hempty : (rankedGroups fs).isEmpty = true ↔ fs = [] := by
    rw [List.isEmpty_iff, ← List.length_eq_zero_iff, length_rankedGroups, List.length_eq_zero_iff,
      List.dedup_eq_nil, List.map_eq_nil_iff]
  have hlines : ((rankedGroups fs).take maxRules).flatMap groupLines =
      (shownSections fs).flatMap RuleSection.lines := by
    rw [shownSections, List.flatMap_map]
    exact List.flatMap_congr fun g hg =>
      lines_sectionOf ((mem_rankedGroups fs).mp (List.mem_of_mem_take hg)).2
  simp only [findingLines, hlines, length_rankedGroups, hempty, ruleRemainder_eq]

lemma length_hidden_le {s : RuleSection} (hs : s ∈ shownSections fs) {id : String}
    (hid : id ∈ hiddenRules fs) : (ofRule id fs).length ≤ s.count := by
  have hbefore := pairwise_rules fs
  rw [← rules_shown_hidden, List.pairwise_append] at hbefore
  rw [(accounts_of_mem fs hs).count]
  rcases hbefore.2.2 _ (List.mem_map_of_mem hs) _ hid with hlt | ⟨heq, -⟩
  · exact hlt.le
  · exact heq.ge

lemma sum_shown_hidden : ((shownSections fs).map (·.count)).sum +
    ((hiddenRules fs).map fun id => (ofRule id fs).length).sum = fs.length := by
  have hcounts : (shownSections fs).map (·.count) =
      ((shownSections fs).map (·.rule)).map fun id => (ofRule id fs).length := by
    rw [List.map_map]
    exact List.map_congr_left fun s hs => (accounts_of_mem fs hs).count
  rw [hcounts, ← List.sum_append, ← List.map_append, rules_shown_hidden, sum_counts]

end Sections

/-- **A prompt accounts for all findings.** Its lines are those about the project, the score, the
number of findings, a section for each of the first fifteen rules and, if there are more, the number
of the other rules. The rules stand by the number of their findings, of those with as many by their
ids; a section tells how many findings its rule has, lists the first three of them, and counts the
others; and the number of findings is the sum of those of all rules, shown or not. -/
theorem prompt_accounts (r : Report) :
    let fs := r.findings
    let rules := (fs.map (·.ruleId)).dedup
    ∃ (shown : List RuleSection) (hidden : List String) (others : Option ℕ) (total : ℕ),
      reportPrompt r = textOfLines (projectLines r ++
        ["", "## Health score: " ++ Decimal.oneDecimal r.healthScore ++ "/10",
          "Total findings: " ++ toString total, "", "## Findings by rule"] ++
        ((if fs = [] then ["No findings."] else []) ++ shown.flatMap RuleSection.lines ++
          others.toList.map fun m => "(" ++ toString m ++ " more rules not shown)") ++
        ["", reportQuestion]) ∧
      shown.length = min 15 rules.length ∧
      (shown.map (·.rule) ++ hidden).Perm rules ∧
      (shown.map (·.rule) ++ hidden).Pairwise (RuleBefore fs) ∧
      (∀ s ∈ shown, s.Accounts fs) ∧
      (∀ s ∈ shown, ∀ id ∈ hidden, (ofRule id fs).length ≤ s.count) ∧
      (∀ m, others = some m ↔ 15 < rules.length ∧ m = rules.length - 15) ∧
      total = (shown.map (·.count)).sum + (hidden.map fun id => (ofRule id fs).length).sum := by
  intro fs rules
  have hrules := rules_shown_hidden fs
  refine ⟨shownSections fs, hiddenRules fs, notShown fs, fs.length, ?_, length_shownSections fs, ?_,
    ?_, fun s => accounts_of_mem fs, fun s hs id => length_hidden_le fs hs,
    fun m => notShown_eq_some fs, (sum_shown_hidden fs).symm⟩
  · rw [reportPrompt, findingLines_eq]
    rfl
  · rw [hrules]
    exact rules_rankedGroups fs
  · rw [hrules]
    exact pairwise_rules fs

end CodeHealth.Proofs.PromptSections
