import CodeHealth.Proofs.RuleSettings

/-!
Lists of allowed rules and categories are filters.

A list of categories takes the findings of other categories away and leaves the rest as it is. A
list of rules does the same among all rules of the catalog, and then it alone settles which rules
run: categories, settings and presets do not count any more.
-/

namespace CodeHealth.Proofs.AllowLists

open CodeHealth.Check CodeHealth.Proofs.Resolution CodeHealth.Proofs.RuleSettings

def allIds : List String := Rule.catalog.map (·.id)

lemma id_mem_allIds {r : Rule.Entry} (h : Rule.find? r.id = some r) : r.id ∈ allIds :=
  List.mem_map_of_mem (List.mem_of_find?_eq_some h)

section

variable {cs : List Checker} {files : FileSet} {preset preset' : String}
  {cats cats' : Option (List String)} {rules rules' : KeyMap Rule.RuleOverride}

def listed (names : List String) (id : String) : Bool :=
  (Rule.find? id).any fun r => names.contains r.category

lemma category_listed {o : Rule.Overrides} {f : Finding} (h : f ∈ found cs files preset o)
    (names : List String) : f.category.any names.contains = listed names f.ruleId := by
  obtain ⟨r, hr, hcat, -, -⟩ := of_mem_run h
  rw [listed, hr, hcat]
  rfl

lemma found_categories (names : List String) :
    found cs files preset ⟨none, some names, rules⟩ =
      (found cs files preset ⟨none, none, rules⟩).filter
        fun f => f.category.any names.contains := by
  have hruns : ∀ r, Rule.find? r.id = some r →
      Rule.resolveEnabled (presetOf preset) ⟨none, some names, rules⟩ r =
        (Rule.resolveEnabled (presetOf preset) ⟨none, none, rules⟩ r && listed names r.id) := by
    intro r hr
    rw [resolveEnabled_eq, resolveEnabled_eq, listed, hr, Bool.and_comm]
    rfl
  rw [found_chosen (listed names) hruns (fun _ => rfl) fun _ _ => rfl]
  exact List.filter_congr fun f hf => (category_listed hf names).symm

lemma found_enabledRules (ids : List String) :
    found cs files preset ⟨some ids, cats, rules⟩ =
      (found cs files preset ⟨some allIds, cats, rules⟩).filter
        fun f => ids.contains f.ruleId := by
  refine found_chosen ids.contains (fun r hr => ?_) (fun _ => rfl) fun _ _ => rfl
  have hall : allIds.contains r.id = true := List.contains_iff_mem.mpr (id_mem_allIds hr)
  rw [resolveEnabled_of_enabledRules, resolveEnabled_of_enabledRules, hall, Bool.true_and]

lemma found_stamp_of_enabledRules (ids : List String)
    (hopt : ∀ id, (asked ⟨some ids, cats', rules'⟩ id).options =
      (asked ⟨some ids, cats, rules⟩ id).options) :
    found cs files preset' ⟨some ids, cats', rules'⟩ =
      (found cs files preset ⟨some ids, cats, rules⟩).map
        (stamp (Rule.resolve preset' ⟨some ids, cats', rules'⟩).1) := by
  refine found_stamp (fun r _ => ?_) hopt
  rw [resolveEnabled_of_enabledRules, resolveEnabled_of_enabledRules]

lemma found_same_of_enabledRules (ids : List String)
    (hopt : ∀ id, (asked ⟨some ids, cats', rules'⟩ id).options =
      (asked ⟨some ids, cats, rules⟩ id).options)
    (hsev : ∀ id, (asked ⟨some ids, cats', rules'⟩ id).severity =
      (asked ⟨some ids, cats, rules⟩ id).severity)
    (hweight : ∀ r ∈ Rule.catalog, weight (presetOf preset') r = weight (presetOf preset) r) :
    found cs files preset' ⟨some ids, cats', rules'⟩ =
      found cs files preset ⟨some ids, cats, rules⟩ := by
  refine found_same (fun r _ => ?_) hopt fun r hr => ?_
  · rw [resolveEnabled_of_enabledRules, resolveEnabled_of_enabledRules]
  · have hmem : r ∈ Rule.catalog := List.mem_of_find?_eq_some hr
    rw [resolveSeverity_eq, resolveSeverity_eq, hsev, hweight r hmem]

end

/-- **Allowed rules and categories are filters.** Without a list of rules, a list of categories
leaves of all findings those of its categories. A list of rules leaves of the findings of all rules
those of its rules; and then requests that ask for the same options find the same, whatever
categories they list, whatever rules they and the preset turn on, and each at its own severities. -/
theorem allowed_lists_filter (cs : List Checker) (files : FileSet) :
    (∀ preset names rules,
      found cs files preset ⟨none, some names, rules⟩ =
        (found cs files preset ⟨none, none, rules⟩).filter
          fun f => f.category.any names.contains) ∧
    (∀ preset ids cats rules,
      found cs files preset ⟨some ids, cats, rules⟩ =
        (found cs files preset ⟨some allIds, cats, rules⟩).filter
          fun f => ids.contains f.ruleId) ∧
    ∀ preset preset' ids cats cats' rules rules',
      let o : Rule.Overrides := ⟨some ids, cats, rules⟩
      let o' : Rule.Overrides := ⟨some ids, cats', rules'⟩
      (∀ id, (asked o' id).options = (asked o id).options) →
      found cs files preset' o' =
          (found cs files preset o).map (stamp (Rule.resolve preset' o').1) ∧
        ((∀ id, (asked o' id).severity = (asked o id).severity) →
          (∀ r ∈ Rule.catalog, weight (presetOf preset') r = weight (presetOf preset) r) →
          found cs files preset' o' = found cs files preset o) := by
  refine ⟨fun _ names _ => found_categories names, fun _ ids _ _ => found_enabledRules ids,
    fun preset preset' ids cats cats' rules rules' => ?_⟩
  intro o o' hopt
  refine ⟨found_stamp_of_enabledRules ids hopt, fun hsev hweight => ?_⟩
  exact found_same_of_enabledRules ids hopt hsev hweight

def noVarsRule : KeyMap Rule.RuleOverride :=
  ⟨[("no-var", ⟨some false, none, .empty⟩)], List.pairwise_singleton _ _⟩

lemma asked_noVarsRule (id : String) (ids : List String) (cats : Option (List String)) :
    (asked ⟨some ids, cats, noVarsRule⟩ id).options = .empty ∧
      (asked ⟨some ids, cats, noVarsRule⟩ id).severity = none := by
  by_cases h : id = "no-var"
  · subst h
    exact ⟨rfl, rfl⟩
  · simp [asked, noVarsRule, KeyMap.get?, List.lookup_cons, beq_false_of_ne h]

theorem allowed_lists_filter_vars :
    let files : FileSet := (MemoryFiles.mk [(⟨"a.js"⟩, some "var x = a == b;")]).toFileSet
    let ids := ["no-var", "ghost", "no-var"]
    let o : Rule.Overrides := ⟨some ids, none, .empty⟩
    let o' : Rule.Overrides := ⟨some ids, some ["accessibility"], noVarsRule⟩
    (∀ id, (asked o' id).options = (asked o id).options) ∧
    (∀ id, (asked o' id).severity = (asked o id).severity) ∧
    (∀ r ∈ Rule.catalog, weight (presetOf "minimal") r = weight (presetOf "recommended") r) ∧
    found builtin files "minimal" o' = found builtin files "recommended" o := by
  intro files ids o o'
  have hopt : ∀ id, (asked o' id).options = (asked o id).options := fun id =>
    (asked_noVarsRule id ids _).1
  have hsev : ∀ id, (asked o' id).severity = (asked o id).severity := fun id =>
    (asked_noVarsRule id ids _).2
  have hweight : ∀ r ∈ Rule.catalog,
      weight (presetOf "minimal") r = weight (presetOf "recommended") r := by decide +kernel
  obtain ⟨-, -, hids⟩ := allowed_lists_filter builtin files
  obtain ⟨-, hsame⟩ := hids "recommended" "minimal" ids none (some ["accessibility"]) .empty
    noVarsRule hopt
  exact ⟨hopt, hsev, hweight, hsame hsev hweight⟩

end CodeHealth.Proofs.AllowLists
