import CodeHealth.Proofs.RuleSettings

/-!
Rules do not interfere with one another.

What is found of a rule depends on the settings of that rule and on nothing else that is configured:
not on which other rules run, what they find, or whether they fail. So a change to what is asked
for one rule leaves the findings of all others as they are, and a change to its severity alone
leaves also its own findings as they are but for that.
-/

namespace CodeHealth.Proofs.NonInterference

open CodeHealth.Check CodeHealth.Proofs.Resolution CodeHealth.Proofs.RuleSettings

/-- Two requests differ at most in what they ask for one rule. -/
structure DiffersAt (q : String) (o o' : Rule.Overrides) : Prop where
  enabledRules : o'.enabledRules = o.enabledRules
  categories : o'.categories = o.categories
  rules : ∀ id, id ≠ q → asked o' id = asked o id

section

variable {cs : List Checker} {files : FileSet} {preset preset' : String}
  {o o' : Rule.Overrides} {q : String}

lemma filter_found_congr (keep : String → Bool)
    (h : ∀ id, keep id = true →
      (Rule.resolve preset' o').1.rule? id = (Rule.resolve preset o).1.rule? id) :
    (found cs files preset' o').filter (fun f => keep f.ruleId) =
      (found cs files preset o).filter fun f => keep f.ruleId := by
  unfold found
  rw [filter_run, filter_run]
  exact run_congr fun c hc => h c.ruleId (List.mem_filter.mp hc).2

lemma DiffersAt.rule?_eq (h : DiffersAt q o o') {id : String} (hid : id ≠ q) :
    (Rule.resolve preset o').1.rule? id = (Rule.resolve preset o).1.rule? id := by
  rw [resolve_fst, resolve_fst]
  exact rule?_congr h.enabledRules h.categories (h.rules id hid)

/-- If also the rule itself is asked for in the same way up to its severity, then all is found as
before, and only the severities may be new. -/
lemma DiffersAt.found_eq (h : DiffersAt q o o')
    (hen : (asked o' q).enabled = (asked o q).enabled)
    (hopt : (asked o' q).options = (asked o q).options) :
    found cs files preset o' =
      (found cs files preset o).map (stamp (Rule.resolve preset o').1) := by
  have hen' : ∀ id, (asked o' id).enabled = (asked o id).enabled := fun id => by
    by_cases hq : id = q
    · rw [hq, hen]
    · rw [h.rules id hq]
  have hopt' : ∀ id, (asked o' id).options = (asked o id).options := fun id => by
    by_cases hq : id = q
    · rw [hq, hopt]
    · rw [h.rules id hq]
  refine found_stamp (fun r _ => ?_) hopt'
  rw [resolveEnabled_eq, resolveEnabled_eq, ruledBy_congr h.enabledRules h.categories, hen']

end

/-- **Rules do not interfere.** If a rule has the same settings in two analyses, the same is found
of it. If two analyses differ in what is asked for one rule, all that is found of the others is the
same; and if that is only its severity, then also what is found of the rule itself, with the new
severity on it. -/
theorem rules_do_not_interfere (cs : List Checker) (files : FileSet) :
    (∀ preset preset' o o' id,
      (Rule.resolve preset' o').1.rule? id = (Rule.resolve preset o).1.rule? id →
      (found cs files preset' o').filter (fun f => f.ruleId = id) =
        (found cs files preset o).filter fun f => f.ruleId = id) ∧
    ∀ preset o o' q, DiffersAt q o o' →
      ((found cs files preset o').filter (fun f => f.ruleId ≠ q) =
        (found cs files preset o).filter fun f => f.ruleId ≠ q) ∧
      ((asked o' q).enabled = (asked o q).enabled → (asked o' q).options = (asked o q).options →
        found cs files preset o' = (found cs files preset o).map fun f =>
          if f.ruleId = q then stamp (Rule.resolve preset o').1 f else f) := by
  refine ⟨fun preset preset' o o' id h => ?_, fun preset o o' q h => ⟨?_, fun hen hopt => ?_⟩⟩
  · refine filter_found_congr (fun i => decide (i = id)) fun i hi => ?_
    rw [of_decide_eq_true hi, h]
  · exact filter_found_congr (fun i => decide (i ≠ q)) fun i hi =>
      h.rule?_eq (of_decide_eq_true hi)
  · rw [h.found_eq hen hopt]
    refine List.map_congr_left fun f hf => ?_
    split
    case isTrue => rfl
    case isFalse hne =>
      obtain ⟨-, -, -, hstamp, -⟩ := of_mem_run hf
      have hsev : (Rule.resolve preset o').1.severityFor f.ruleId =
          (Rule.resolve preset o).1.severityFor f.ruleId := by
        rw [Rule.Config.severityFor, Rule.Config.severityFor, h.rule?_eq hne]
      rw [stamp_congr hsev, hstamp]

def nothingAsked : Rule.Overrides := ⟨none, none, .empty⟩

/-- Variables are to weigh as much as errors. -/
def heavyVars : Rule.Overrides :=
  ⟨none, none, ⟨[("no-var", ⟨none, some .error, .empty⟩)], List.pairwise_singleton _ _⟩⟩

theorem rules_do_not_interfere_vars :
    let files : FileSet := (MemoryFiles.mk [(⟨"a.js"⟩, some "var x = a == b;")]).toFileSet
    let config := (Rule.resolve "recommended" nothingAsked).1
    let config' := (Rule.resolve "recommended" heavyVars).1
    let fs := found builtin files "recommended" nothingAsked
    let fs' := found builtin files "recommended" heavyVars
    config'.rule? "loose-equality" = config.rule? "loose-equality" ∧
    DiffersAt "no-var" nothingAsked heavyVars ∧
    fs'.filter (fun f => f.ruleId = "loose-equality") =
      fs.filter (fun f => f.ruleId = "loose-equality") ∧
    fs'.filter (fun f => f.ruleId ≠ "no-var") = fs.filter (fun f => f.ruleId ≠ "no-var") ∧
    fs' = fs.map fun f => if f.ruleId = "no-var" then stamp config' f else f := by
  intro files config config' fs fs'
  have hdiff : DiffersAt "no-var" nothingAsked heavyVars :=
    ⟨rfl, rfl, fun id hid => by
      simp [asked, heavyVars, nothingAsked, KeyMap.get?, KeyMap.empty, List.lookup_cons,
        beq_false_of_ne hid]⟩
  have hsame : config'.rule? "loose-equality" = config.rule? "loose-equality" :=
    hdiff.rule?_eq (by decide)
  obtain ⟨hrule, hrest⟩ := rules_do_not_interfere builtin files
  obtain ⟨hothers, hown⟩ := hrest "recommended" nothingAsked heavyVars "no-var" hdiff
  exact ⟨hsame, hdiff, hrule "recommended" "recommended" _ _ "loose-equality" hsame, hothers,
    hown rfl rfl⟩

end CodeHealth.Proofs.NonInterference
