import CodeHealth.CommandLine.Analyze
import CodeHealth.Proofs.RuleSettings
import CodeHealth.Proofs.ScoreHalves
import Mathlib.Data.List.Forall2

/-!
A stricter preset finds more.

Of two neighbouring presets the stricter one lets at least the rules of the other run, and lets
each weigh at least as much. What a caller asks for besides keeps that order, since it either
settles a rule for both presets alike or leaves it to them. So whatever is asked, the findings of
the milder preset are found by the stricter one too, in the same order and not lighter; the score
can only fall, and a threshold that is exceeded stays exceeded.
-/

namespace CodeHealth.Proofs.PresetOrder

open CodeHealth.Check CodeHealth.Proofs.Resolution CodeHealth.Proofs.RuleSettings
open CodeHealth.Proofs.ScoreHalves

/-! ### Presets -/

/-- What one preset lets run the other lets run too, and it does not weigh less there. -/
def Within (p q : Rule.Preset) : Prop :=
  ∀ r ∈ Rule.catalog, (runs p r = true → runs q r = true) ∧ (weight p r).rank ≤ (weight q r).rank

lemma minimal_within_recommended : Within .minimal .recommended := by
  unfold Within
  decide +kernel

lemma recommended_within_strict : Within .recommended .strict := by
  unfold Within
  decide +kernel

lemma presetOf_minimal : presetOf "minimal" = .minimal := by decide +kernel

lemma presetOf_recommended : presetOf "recommended" = .recommended := by decide +kernel

lemma presetOf_strict : presetOf "strict" = .strict := by decide +kernel

section Resolution

variable {p q : Rule.Preset} {r : Rule.Entry}

lemma ruledBy_mono {o : Rule.Overrides} {own own' : Bool} (h : own = true → own' = true)
    (hown : ruledBy o r own = true) : ruledBy o r own' = true := by
  unfold ruledBy at hown ⊢
  cases ho : o.enabledRules with
  | some ids => simpa only [ho] using hown
  | none =>
    simp only [ho, Bool.and_eq_true] at hown ⊢
    exact ⟨hown.1, h hown.2⟩

lemma resolveEnabled_mono (h : Within p q) (hr : r ∈ Rule.catalog) (o : Rule.Overrides)
    (hp : Rule.resolveEnabled p o r = true) : Rule.resolveEnabled q o r = true := by
  rw [resolveEnabled_eq] at hp ⊢
  refine ruledBy_mono (fun hown => ?_) hp
  cases hasked : (asked o r.id).enabled with
  | some b => simpa only [hasked, Option.getD_some] using hown
  | none =>
    rw [hasked, Option.getD_none] at hown
    exact (h r hr).1 hown

lemma resolveSeverity_mono (h : Within p q) (hr : r ∈ Rule.catalog) (o : Rule.Overrides) :
    (Rule.resolveSeverity p o r).rank ≤ (Rule.resolveSeverity q o r).rank := by
  rw [resolveSeverity_eq, resolveSeverity_eq]
  cases (asked o r.id).severity with
  | some s => exact Nat.le_refl _
  | none => exact (h r hr).2

end Resolution

/-! ### Findings -/

def unweighed (f : Finding) : Finding := { f with severity := .info }

lemma unweighed_stamp (config : Rule.Config) (f : Finding) :
    unweighed (stamp config f) = unweighed f := rfl

/-- Two findings differ at most in severity, and the second one is as heavy or heavier. -/
def Outweighed (f g : Finding) : Prop :=
  unweighed f = unweighed g ∧ g.severity.atLeast f.severity = true

/-- The findings of one list stand in the other one too, in the same order, each as heavy or
heavier. -/
def Covered (fs gs : List Finding) : Prop := List.SublistForall₂ Outweighed fs gs

lemma Covered.sublist {fs gs : List Finding} (h : Covered fs gs) :
    (fs.map unweighed).Sublist (gs.map unweighed) := by
  obtain ⟨hs, hpairs, hsub⟩ := List.sublistForall₂_iff.mp h
  have hsame : fs.map unweighed = hs.map unweighed := by
    refine List.forall₂_eq_eq_eq ▸ ?_
    refine List.forall₂_map_left_iff.mpr (List.forall₂_map_right_iff.mpr ?_)
    exact hpairs.imp fun _ _ e => e.1
  rw [hsame]
  exact hsub.map unweighed

lemma severity_of_mem_found {cs : List Checker} {files : FileSet} {preset : String}
    {o : Rule.Overrides} {f : Finding} (h : f ∈ found cs files preset o) :
    ∃ r ∈ Rule.catalog, Rule.find? f.ruleId = some r ∧
      f.severity = Rule.resolveSeverity (presetOf preset) o r := by
  obtain ⟨r, hr, -, hstamp, -⟩ := of_mem_run h
  refine ⟨r, List.mem_of_find?_eq_some hr, hr, ?_⟩
  rw [← hstamp, stamp, resolve_fst, severityFor_of_find? hr, Option.getD_some]

section Found

variable {cs : List Checker} {files : FileSet} {preset preset' : String}

lemma outweighed_stamp (h : Within (presetOf preset) (presetOf preset')) {o : Rule.Overrides}
    {f : Finding} (hf : f ∈ found cs files preset' o) :
    Outweighed (stamp (Rule.resolve preset o).1 f) f := by
  obtain ⟨r, hmem, hr, hsev⟩ := severity_of_mem_found hf
  refine ⟨unweighed_stamp _ f, ?_⟩
  rw [Severity.atLeast, hsev, stamp, resolve_fst, severityFor_of_find? hr, Option.getD_some,
    decide_eq_true_iff]
  exact resolveSeverity_mono h hmem o

lemma found_covered (h : Within (presetOf preset) (presetOf preset')) (o : Rule.Overrides) :
    Covered (found cs files preset o) (found cs files preset' o) := by
  -- of the rules of the stricter preset, keep those that the milder one lets run
  let keep := (Rule.resolvePreset (presetOf preset) o).isEnabled
  have hruns : ∀ r, Rule.find? r.id = some r → Rule.resolveEnabled (presetOf preset) o r =
      (Rule.resolveEnabled (presetOf preset') o r && keep r.id) := by
    intro r hr
    have hkeep : keep r.id = Rule.resolveEnabled (presetOf preset) o r := isEnabled_of_find? hr
    rw [hkeep]
    cases hp : Rule.resolveEnabled (presetOf preset) o r with
    | false => rw [Bool.and_false]
    | true => rw [resolveEnabled_mono h (List.mem_of_find?_eq_some hr) o hp, Bool.and_true]
  rw [found_narrowed keep hruns fun _ => rfl]
  refine List.sublistForall₂_iff.mpr
    ⟨(found cs files preset' o).filter fun f => keep f.ruleId, ?_, List.filter_sublist⟩
  refine List.forall₂_map_left_iff.mpr (List.forall₂_same.mpr fun f hf => ?_)
  exact outweighed_stamp h (List.mem_filter.mp hf).1

end Found

/-! ### Figures -/

lemma halvesOf_le_of_atLeast {s t : Severity} (h : t.atLeast s = true) :
    halvesOf s ≤ halvesOf t := by
  cases s <;> cases t <;> revert h <;> decide

lemma atLeast_trans {s t u : Severity} (hst : t.atLeast s = true) (htu : u.atLeast t = true) :
    u.atLeast s = true := by
  rw [Severity.atLeast, decide_eq_true_iff] at *
  exact Nat.le_trans hst htu

lemma Covered.penaltyHalves_le {fs gs : List Finding} (h : Covered fs gs) :
    penaltyHalves fs ≤ penaltyHalves gs := by
  induction h with
  | nil => exact Nat.zero_le _
  | cons hfg _ ih =>
    rw [penaltyHalves_cons, penaltyHalves_cons]
    exact Nat.add_le_add (halvesOf_le_of_atLeast hfg.2) ih
  | cons_right _ ih =>
    rw [penaltyHalves_cons]
    exact Nat.le_add_left_of_le ih

lemma floatOfHalves_le : ∀ m ≤ 20, ∀ n ≤ 20, m ≤ n → floatOfHalves m ≤ floatOfHalves n := by
  decide +kernel

lemma Covered.score_le {fs gs : List Finding} (h : Covered fs gs) : score gs ≤ score fs := by
  rw [score_eq, score_eq]
  exact floatOfHalves_le _ (Nat.sub_le _ _) _ (Nat.sub_le _ _)
    (Nat.sub_le_sub_left h.penaltyHalves_le 20)

lemma atOrAbove_eq (fs : List Finding) (t : Severity) :
    (SeverityCounts.ofFindings fs).atOrAbove t = fs.countP (·.severity.atLeast t) := by
  induction fs with
  | nil => cases t <;> rfl
  | cons f fs ih =>
    rw [List.countP_cons, ← ih]
    cases t <;> cases hf : f.severity <;>
      simp [SeverityCounts.atOrAbove, SeverityCounts.ofFindings, hf, Severity.atLeast,
        Severity.rank] <;> omega

lemma Covered.countP_le {fs gs : List Finding} (h : Covered fs gs) (t : Severity) :
    fs.countP (·.severity.atLeast t) ≤ gs.countP (·.severity.atLeast t) := by
  induction h with
  | nil => exact Nat.zero_le _
  | @cons f g fs gs hfg _ ih =>
    rw [List.countP_cons, List.countP_cons]
    split
    case isTrue hf => rw [if_pos (atLeast_trans hf hfg.2)]; omega
    case isFalse => omega
  | cons_right _ ih =>
    rw [List.countP_cons]
    omega

/-! ### Reports -/

/-- One report is milder than another one: its findings are found there too, in the same order; none
of them is lighter there; the score there is not higher; and the thresholds that it exceeds are
exceeded there. -/
structure Milder (a b : Report) : Prop where
  findings : (a.findings.map unweighed).Sublist (b.findings.map unweighed)
  severities : Covered a.findings b.findings
  score : b.healthScore ≤ a.healthScore
  threshold : ∀ t, CommandLine.exceeds t a = true → CommandLine.exceeds t b = true

lemma milder_of_covered {a b : Report} (h : Covered a.findings b.findings)
    (ha : a.healthScore = score a.findings) (hb : b.healthScore = score b.findings) :
    Milder a b := by
  refine ⟨h.sublist, h, ?_, fun t ht => ?_⟩
  · rw [ha, hb]
    exact h.score_le
  · cases t with
    | none => exact ht
    | some t =>
      simp only [CommandLine.exceeds, Option.any_some, decide_eq_true_iff, atOrAbove_eq] at ht ⊢
      exact Nat.lt_of_lt_of_le ht (h.countP_le t)

lemma healthScore_analyze (e : Engine) (preset : String) (o : Rule.Overrides) (files : FileSet)
    (project : ProjectInfo) (platform : Platform) (now : Instant) :
    (analyze e preset o files project platform now).healthScore =
      score (analyze e preset o files project platform now).findings := by
  simp only [analyze]

lemma milder_of_within {cs : List Checker} {files : FileSet} {preset preset' : String}
    (h : Within (presetOf preset) (presetOf preset')) (o : Rule.Overrides) (project : ProjectInfo)
    (platform : Platform) (now : Instant) :
    Milder (analyze ⟨cs, none⟩ preset o files project platform now)
      (analyze ⟨cs, none⟩ preset' o files project platform now) := by
  refine milder_of_covered ?_ (healthScore_analyze ..) (healthScore_analyze ..)
  rw [findings_analyze, findings_analyze]
  exact found_covered h o

/-- **A stricter preset finds more.** For any checkers and files, and whatever is asked besides. -/
theorem stricter_presets_find_more (cs : List Checker) (files : FileSet) (o : Rule.Overrides)
    (project : ProjectInfo) (platform : Platform) (now : Instant) :
    let report := fun preset => analyze ⟨cs, none⟩ preset o files project platform now
    Milder (report "minimal") (report "recommended") ∧
      Milder (report "recommended") (report "strict") := by
  refine ⟨milder_of_within ?_ o project platform now, milder_of_within ?_ o project platform now⟩
  · rw [presetOf_minimal, presetOf_recommended]
    exact minimal_within_recommended
  · rw [presetOf_recommended, presetOf_strict]
    exact recommended_within_strict

end CodeHealth.Proofs.PresetOrder
