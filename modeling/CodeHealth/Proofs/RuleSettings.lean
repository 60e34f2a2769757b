import CodeHealth.Analysis.Report
import CodeHealth.Proofs.Evaluation

/-!
What the settings of rules do to the findings.

A configuration acts on each rule apart from the others: it lets the rule run or not, hands it its
options, and puts a severity on what was found. So if one configuration runs a part of the rules
that another one runs, with the same options, then its findings are those of the other one, without
the rules that it does not run, and each with the severity that it gives.
-/

namespace CodeHealth.Proofs.RuleSettings

open CodeHealth.Check CodeHealth.Proofs.Evaluation CodeHealth.Proofs.FindingOrder
open CodeHealth.Proofs.Resolution

/-- A finding with the severity that a configuration gives its rule. -/
def stamp (config : Rule.Config) (f : Finding) : Finding :=
  { f with severity := (config.severityFor f.ruleId).getD f.severity }

lemma le_stamp (config : Rule.Config) (a b : Finding) :
    (stamp config a).le (stamp config b) = a.le b := rfl

lemma stamp_congr {config config' : Rule.Config} {f : Finding}
    (h : config'.severityFor f.ruleId = config.severityFor f.ruleId) :
    stamp config' f = stamp config f := by
  rw [stamp, stamp, h]

lemma exists_severityFor (config : Rule.Config) {id : String} {r : Rule.Entry}
    (h : Rule.find? id = some r) : ∃ s, config.severityFor id = some s := by
  rw [Rule.Config.severityFor, h]
  cases config.rule? id with
  | none => exact ⟨_, rfl⟩
  | some rc => exact ⟨_, rfl⟩

lemma stamp_ofHit (config : Rule.Config) {id : String} {r : Rule.Entry}
    (h : Rule.find? id = some r) (s : Severity) (p : Path) (hit : Hit) :
    stamp config (.ofHit r s p hit) =
      .ofHit r ((config.severityFor r.id).getD r.severity) p hit := by
  have hid := id_of_find? h
  subst hid
  obtain ⟨t, ht⟩ := exists_severityFor config h
  have hstamp : (config.severityFor (Finding.ofHit r s p hit).ruleId).getD s = t := by
    rw [show (Finding.ofHit r s p hit).ruleId = r.id from rfl, ht, Option.getD_some]
  rw [ht, Option.getD_some, ← hstamp]
  rfl

/-! ### One checker on one file -/

section Checker

variable {config config' : Rule.Config} {p : Path} {content : String} {c : Checker}

lemma findingsAt_of_unknown (h : Rule.find? c.ruleId = none) :
    findingsAt config p content c = [] := by
  rw [List.eq_nil_iff_forall_not_mem]
  intro f hf
  obtain ⟨r, hit, hr, -⟩ := exists_hit hf
  rw [h] at hr
  cases hr

lemma findingsAt_stamp (h : config'.optionsFor c.ruleId = config.optionsFor c.ruleId) :
    findingsAt config' p content c = (findingsAt config p content c).map (stamp config') := by
  have hout : outcomeAt config' p content c = outcomeAt config p content c := by
    rw [outcomeAt, outcomeAt, sourceFor, sourceFor, h]
  unfold findingsAt
  rw [hout]
  cases outcomeAt config p content c with
  | failed m => rfl
  | crashed m => rfl
  | hits hs =>
    simp only [evaluateOutcome, findingsOfHits]
    cases hr : Rule.find? c.ruleId with
    | none => rfl
    | some r =>
      rw [List.map_map]
      exact List.map_congr_left fun hit _ => (stamp_ofHit config' hr _ p hit).symm

lemma filter_findingsAt (keep : String → Bool) :
    (findingsAt config p content c).filter (fun f => keep f.ruleId) =
      if keep c.ruleId then findingsAt config p content c else [] := by
  split
  case isTrue h =>
    rw [List.filter_eq_self]
    intro f hf
    rw [(of_mem_findingsAt hf).2, h]
  case isFalse h =>
    rw [List.filter_eq_nil_iff]
    intro f hf
    rw [(of_mem_findingsAt hf).2]
    exact h

lemma filter_share (keep : String → Bool) :
    (share config p content c).filter (fun f => keep f.ruleId) =
      if keep c.ruleId then share config p content c else [] := by
  unfold share
  split
  · exact filter_findingsAt keep
  · simp

/-- Under one configuration a rule runs if it runs under the other and is kept, and it has the same
options. -/
def Narrows (keep : String → Bool) (config config' : Rule.Config) (id : String) : Prop :=
  config'.isEnabled id = (config.isEnabled id && keep id) ∧
    config'.optionsFor id = config.optionsFor id

lemma share_narrowed {keep : String → Bool}
    (h : Rule.isKnown c.ruleId = true → Narrows keep config config' c.ruleId) :
    share config' p content c =
      ((share config p content c).filter fun f => keep f.ruleId).map (stamp config') := by
  rw [filter_share]
  cases hr : Rule.find? c.ruleId with
  | none => simp [share, findingsAt_of_unknown hr]
  | some r =>
    obtain ⟨hen, hopt⟩ := h (by rw [Rule.isKnown, hr]; rfl)
    rw [share, share, hen, findingsAt_stamp hopt]
    cases config.isEnabled c.ruleId <;> cases keep c.ruleId <;> cases c.appliesTo p <;> rfl

end Checker

/-! ### A run -/

section Run

variable {cs : List Checker} {config config' : Rule.Config} {files : FileSet}

lemma exists_of_mem_run {f : Finding} (h : f ∈ ((Engine.mk cs none).run config files).findings) :
    ∃ c ∈ cs, ∃ p content, f ∈ findingsAt config p content c := by
  rw [run_findings_eq, mem_sort, List.mem_flatMap] at h
  obtain ⟨p, -, hf⟩ := h
  unfold foundIn at hf
  cases hread : files.read p with
  | error e => simp [hread] at hf
  | ok content =>
    rw [hread] at hf
    obtain ⟨c, hc, hshare⟩ := List.mem_flatMap.mp hf
    unfold share at hshare
    split at hshare
    · exact ⟨c, hc, p, content, hshare⟩
    · cases hshare

lemma of_mem_run {f : Finding} (h : f ∈ ((Engine.mk cs none).run config files).findings) :
    ∃ r, Rule.find? f.ruleId = some r ∧ f.category = some r.category ∧ stamp config f = f ∧
      ∃ c ∈ cs, c.ruleId = f.ruleId := by
  obtain ⟨c, hc, p, content, hf⟩ := exists_of_mem_run h
  obtain ⟨r, hit, hr, rfl⟩ := exists_hit hf
  have hid := id_of_find? hr
  refine ⟨r, ?_, rfl, stamp_ofHit config hr _ p hit, c, hc, hid.symm⟩
  rw [show (Finding.ofHit r _ p hit).ruleId = r.id from rfl, hid]
  exact hr

/-- **Choosing findings by their rule is choosing checkers.** -/
theorem filter_run (keep : String → Bool) :
    ((Engine.mk cs none).run config files).findings.filter (fun f => keep f.ruleId) =
      ((Engine.mk (cs.filter fun c => keep c.ruleId) none).run config files).findings := by
  have hfound : ∀ p, (foundIn cs config files p).filter (fun f => keep f.ruleId) =
      foundIn (cs.filter fun c => keep c.ruleId) config files p := by
    intro p
    unfold foundIn
    cases files.read p with
    | error e => rfl
    | ok content => simp only [List.filter_flatMap, filter_share, flatMap_filter_eq]
  rw [run_findings_eq, run_findings_eq, filter_sort, List.filter_flatMap]
  simp only [hfound]

/-- **A configuration acts rule by rule.** If it runs the rules of another one that are kept, with
the same options, it finds what the other finds of these rules, at its own severities. -/
theorem run_narrowed {keep : String → Bool}
    (h : ∀ c ∈ cs, Rule.isKnown c.ruleId = true → Narrows keep config config' c.ruleId) :
    ((Engine.mk cs none).run config' files).findings =
      (((Engine.mk cs none).run config files).findings.filter fun f => keep f.ruleId).map
        (stamp config') := by
  have hfound : foundIn cs config' files = fun p =>
      ((foundIn cs config files p).filter fun f => keep f.ruleId).map (stamp config') := by
    funext p
    unfold foundIn
    cases files.read p with
    | error e => rfl
    | ok content =>
      rw [List.filter_flatMap, List.map_flatMap]
      exact List.flatMap_congr fun c hc => share_narrowed (h c hc)
  rw [run_findings_eq, run_findings_eq, hfound, filter_sort, ← sort_map (le_stamp config'),
    List.filter_flatMap, List.map_flatMap]

/-- If besides the severities are the same, only the choice of rules is left. -/
theorem run_chosen {keep : String → Bool}
    (h : ∀ c ∈ cs, Rule.isKnown c.ruleId = true → Narrows keep config config' c.ruleId ∧
      config'.severityFor c.ruleId = config.severityFor c.ruleId) :
    ((Engine.mk cs none).run config' files).findings =
      ((Engine.mk cs none).run config files).findings.filter fun f => keep f.ruleId := by
  rw [run_narrowed fun c hc hknown => (h c hc hknown).1]
  refine (List.map_congr_left fun f hf => ?_).trans (List.map_id _)
  obtain ⟨r, hr, -, hstamp, c, hc, hid⟩ := of_mem_run (List.mem_filter.mp hf).1
  have hknown : Rule.isKnown c.ruleId = true := by rw [hid, Rule.isKnown, hr]; rfl
  rw [stamp_congr (hid ▸ (h c hc hknown).2), hstamp]
  rfl

/-- With the same settings for the rules of all checkers the findings are the same. -/
theorem run_congr (h : ∀ c ∈ cs, config'.rule? c.ruleId = config.rule? c.ruleId) :
    ((Engine.mk cs none).run config' files).findings =
      ((Engine.mk cs none).run config files).findings := by
  have hall : ∀ c ∈ cs, Rule.isKnown c.ruleId = true →
      Narrows (fun _ => true) config config' c.ruleId ∧
        config'.severityFor c.ruleId = config.severityFor c.ruleId := fun c hc _ => by
    simp only [Narrows, Rule.Config.isEnabled, Rule.Config.optionsFor, Rule.Config.severityFor,
      h c hc, Bool.and_true, and_self]
  rw [run_chosen hall, List.filter_true]

end Run

/-! ### An analysis -/

def found (cs : List Checker) (files : FileSet) (preset : String) (o : Rule.Overrides) :
    List Finding :=
  ((Engine.mk cs none).run (Rule.resolve preset o).1 files).findings

lemma findings_analyze (cs : List Checker) (files : FileSet) (preset : String) (o : Rule.Overrides)
    (project : ProjectInfo) (platform : Platform) (now : Instant) :
    (analyze ⟨cs, none⟩ preset o files project platform now).findings =
      found cs files preset o := by
  simp only [analyze, found]

section Found

variable {cs : List Checker} {files : FileSet} {preset preset' : String} {o o' : Rule.Overrides}
  {keep : String → Bool}

/-- A request narrows another one if the rules that it lets run are those of the other that are
kept, and it asks for the same options. -/
lemma narrows_resolve
    (hen : ∀ r, Rule.find? r.id = some r → Rule.resolveEnabled (presetOf preset') o' r =
      (Rule.resolveEnabled (presetOf preset) o r && keep r.id))
    (hopt : ∀ id, (asked o' id).options = (asked o id).options) {id : String}
    (hknown : Rule.isKnown id = true) :
    Narrows keep (Rule.resolve preset o).1 (Rule.resolve preset' o').1 id := by
  obtain ⟨r, hr⟩ := Option.isSome_iff_exists.mp hknown
  have hid := id_of_find? hr
  subst hid
  refine ⟨?_, ?_⟩
  · rw [resolve_fst, resolve_fst, isEnabled_of_find? hr, isEnabled_of_find? hr, hen r hr]
  · rw [resolve_fst, resolve_fst, optionsFor_of_find? hr, optionsFor_of_find? hr, hopt]

theorem found_narrowed (keep : String → Bool)
    (hen : ∀ r, Rule.find? r.id = some r → Rule.resolveEnabled (presetOf preset') o' r =
      (Rule.resolveEnabled (presetOf preset) o r && keep r.id))
    (hopt : ∀ id, (asked o' id).options = (asked o id).options) :
    found cs files preset' o' =
      ((found cs files preset o).filter fun f => keep f.ruleId).map
        (stamp (Rule.resolve preset' o').1) := by
  unfold found
  exact run_narrowed fun c _ hknown => narrows_resolve hen hopt hknown

theorem found_chosen (keep : String → Bool)
    (hen : ∀ r, Rule.find? r.id = some r → Rule.resolveEnabled (presetOf preset') o' r =
      (Rule.resolveEnabled (presetOf preset) o r && keep r.id))
    (hopt : ∀ id, (asked o' id).options = (asked o id).options)
    (hsev : ∀ r, Rule.find? r.id = some r → Rule.resolveSeverity (presetOf preset') o' r =
      Rule.resolveSeverity (presetOf preset) o r) :
    found cs files preset' o' = (found cs files preset o).filter fun f => keep f.ruleId := by
  unfold found
  refine run_chosen fun c _ hknown => ⟨narrows_resolve hen hopt hknown, ?_⟩
  obtain ⟨r, hr⟩ := Option.isSome_iff_exists.mp hknown
  have hid := id_of_find? hr
  rw [resolve_fst, resolve_fst, severityFor_of_find? hr, severityFor_of_find? hr,
    hsev r (hid.symm ▸ hr)]

/-- Requests that let the same rules run with the same options find the same, each at its own
severities. -/
theorem found_stamp
    (hen : ∀ r, Rule.find? r.id = some r → Rule.resolveEnabled (presetOf preset') o' r =
      Rule.resolveEnabled (presetOf preset) o r)
    (hopt : ∀ id, (asked o' id).options = (asked o id).options) :
    found cs files preset' o' =
      (found cs files preset o).map (stamp (Rule.resolve preset' o').1) := by
  have hall := fun r hr => (hen r hr).trans (Bool.and_true _).symm
  rw [found_narrowed (fun _ => true) hall hopt, List.filter_true]

theorem found_same
    (hen : ∀ r, Rule.find? r.id = some r → Rule.resolveEnabled (presetOf preset') o' r =
      Rule.resolveEnabled (presetOf preset) o r)
    (hopt : ∀ id, (asked o' id).options = (asked o id).options)
    (hsev : ∀ r, Rule.find? r.id = some r → Rule.resolveSeverity (presetOf preset') o' r =
      Rule.resolveSeverity (presetOf preset) o r) :
    found cs files preset' o' = found cs files preset o := by
  have hall := fun r hr => (hen r hr).trans (Bool.and_true _).symm
  rw [found_chosen (fun _ => true) hall hopt hsev, List.filter_true]

end Found

end CodeHealth.Proofs.RuleSettings
