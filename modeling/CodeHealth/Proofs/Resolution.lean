import CodeHealth.Rule.Resolution
import Mathlib.Data.List.Basic

/-!
What a resolved configuration says about one rule.

A configuration has settings for the rules of the catalog and for no other. They come from the
preset, from the two lists, and from what is asked for that one rule; a rule that is not mentioned
is one for which nothing is asked.
-/

namespace CodeHealth.Proofs.Resolution

open CodeHealth.Rule

def presetOf (name : String) : Preset := (Preset.parse name).toOption.getD .recommended

lemma resolve_fst (name : String) (o : Overrides) :
    (resolve name o).1 = resolvePreset (presetOf name) o := by
  unfold resolve presetOf
  cases Preset.parse name <;> rfl

/-! ### What is asked for a rule -/

/-- What is asked for a rule; of a rule that is not mentioned, nothing. -/
def asked (o : Overrides) (id : String) : RuleOverride :=
  (o.rules.get? id).getD ⟨none, none, .empty⟩

/-- The lists admit a rule or leave it to the settings of the rule and to the preset. -/
def ruledBy (o : Overrides) (r : Entry) (own : Bool) : Bool :=
  match o.enabledRules with
  | some ids => ids.contains r.id
  | none => o.admitsCategory r.category && own

def runs (p : Preset) (r : Entry) : Bool := ((p.entry? r.id).map (·.enabled)).getD true

/-- How much a preset lets a violation of a rule weigh. -/
def weight (p : Preset) (r : Entry) : Severity :=
  ((p.entry? r.id).map (·.severity)).getD r.severity

lemma ruledBy_congr {o o' : Overrides} {r : Entry} (hrules : o'.enabledRules = o.enabledRules)
    (hcats : o'.categories = o.categories) : ruledBy o' r = ruledBy o r := by
  funext own
  rw [ruledBy, ruledBy, hrules, Overrides.admitsCategory, Overrides.admitsCategory, hcats]

lemma resolveEnabled_eq (p : Preset) (o : Overrides) (r : Entry) :
    resolveEnabled p o r = ruledBy o r ((asked o r.id).enabled.getD (runs p r)) := by
  have hown : (o.rules.get? r.id).bind (·.enabled) = (asked o r.id).enabled := by
    unfold asked
    cases o.rules.get? r.id <;> rfl
  unfold resolveEnabled ruledBy runs
  rw [hown, Option.getD_or]
  cases o.enabledRules with
  | some ids => rfl
  | none => cases o.admitsCategory r.category <;> rfl

lemma resolveEnabled_of_enabledRules (p : Preset) (ids : List String)
    (cats : Option (List String)) (rules : KeyMap RuleOverride) (r : Entry) :
    resolveEnabled p ⟨some ids, cats, rules⟩ r = ids.contains r.id := rfl

lemma resolveSeverity_eq (p : Preset) (o : Overrides) (r : Entry) :
    resolveSeverity p o r = (asked o r.id).severity.getD (weight p r) := by
  have hown : (o.rules.get? r.id).bind (·.severity) = (asked o r.id).severity := by
    unfold asked
    cases o.rules.get? r.id <;> rfl
  rw [resolveSeverity, hown, Option.getD_or, weight]

lemma optionsFor_eq (o : Overrides) (r : Entry) : o.optionsFor r = (asked o r.id).options := by
  unfold Overrides.optionsFor asked
  cases o.rules.get? r.id <;> rfl

/-! ### The settings of a rule -/

lemma lookup_map_id (g : Entry → RuleConfig) (rs : List Entry) (id : String) :
    (rs.map fun r => (r.id, g r)).lookup id = (rs.find? fun r => r.id = id).map g := by
  induction rs with
  | nil => rfl
  | cons r rs ih =>
    rw [List.map_cons, List.lookup_cons, List.find?_cons]
    by_cases h : id = r.id
    · simp [h]
    · rw [beq_false_of_ne h, decide_eq_false (Ne.symm h)]
      exact ih

lemma rule?_resolvePreset (p : Preset) (o : Overrides) (id : String) :
    (resolvePreset p o).rule? id = (find? id).map (resolveRule p o) :=
  lookup_map_id _ catalog id

lemma id_of_find? {id : String} {r : Entry} (h : find? id = some r) : r.id = id := by
  simpa using List.find?_some h

section Known

variable {p : Preset} {o : Overrides} {id : String} {r : Entry}

lemma isEnabled_of_find? (h : find? id = some r) :
    (resolvePreset p o).isEnabled id = resolveEnabled p o r := by
  rw [Config.isEnabled, rule?_resolvePreset, h]
  rfl

lemma severityFor_of_find? (h : find? id = some r) :
    (resolvePreset p o).severityFor id = some (resolveSeverity p o r) := by
  rw [Config.severityFor, rule?_resolvePreset, h]
  rfl

lemma optionsFor_of_find? (h : find? id = some r) :
    (resolvePreset p o).optionsFor id = (asked o id).options.onlyKnown r.options := by
  have hid := id_of_find? h
  subst hid
  rw [Config.optionsFor, rule?_resolvePreset, h, ← optionsFor_eq]
  rfl

end Known

lemma rule?_congr {p : Preset} {o o' : Overrides} {id : String}
    (hrules : o'.enabledRules = o.enabledRules) (hcats : o'.categories = o.categories)
    (hasked : asked o' id = asked o id) :
    (resolvePreset p o').rule? id = (resolvePreset p o).rule? id := by
  rw [rule?_resolvePreset, rule?_resolvePreset]
  cases h : find? id with
  | none => rfl
  | some r =>
    have hid := id_of_find? h
    subst hid
    simp only [Option.map_some, resolveRule, resolveEnabled_eq, resolveSeverity_eq, optionsFor_eq,
      ruledBy_congr hrules hcats, hasked]

end CodeHealth.Proofs.Resolution
