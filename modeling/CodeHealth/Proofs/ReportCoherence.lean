import CodeHealth.Analysis.Report
import CodeHealth.Proofs.KeyedGroups
import CodeHealth.Proofs.PossibleRuns
import CodeHealth.Proofs.Provenance
import CodeHealth.Proofs.ScoreHalves
import Mathlib

/-!
The figures of a report agree with each other and with what was found.

The counts by severity take in every finding, and the counts by category leave out findings of rules
that the catalog does not know. That both come to the number of findings rests on what a run finds:
every finding is classified as its rule is. Advice changes no severity and no category, so the
figures stay right under it.
-/

namespace CodeHealth.Proofs.ReportCoherence

open CodeHealth.Advice CodeHealth.Check CodeHealth.Proofs.KeyedGroups CodeHealth.Proofs.PossibleRuns
open CodeHealth.Proofs.Provenance CodeHealth.Proofs.Retry

/-- The figures are those of the findings, and they add up. -/
structure Tallied (m : Metrics) (fs : List Finding) : Prop where
  counts : m.bySeverity = .ofFindings fs
  total : m.bySeverity.total = fs.length
  severities : m.bySeverity.total = m.bySeverity.error + m.bySeverity.warning + m.bySeverity.info
  categories : (m.byCategory.entries.map (·.2)).sum = fs.length
  category : ∀ c n, m.byCategory.get? c = some n ↔ 0 < n ∧ fs.countP (·.category = some c) = n
  keys : ∀ c, c ∈ m.byCategory.keys ↔ ∃ f ∈ fs, f.category = some c

structure Coherent (r : Report) : Prop where
  score : r.healthScore = score r.findings
  metrics : ∃ m, r.metrics = some m ∧ Tallied m r.findings

/-! ### Counts -/

lemma countP_severities (fs : List Finding) : fs.length =
    fs.countP (·.severity == .error) + fs.countP (·.severity == .warning) +
      fs.countP (·.severity == .info) := by
  induction fs with
  | nil => rfl
  | cons f fs ih =>
    simp only [List.countP_cons, List.length_cons, ih]
    cases f.severity <;> simp <;> omega

section Categories

variable {fs : List Finding}

lemma catalogCategory?_of_classified {f : Finding} (h : Classified f) :
    ∃ c, f.catalogCategory? = some c ∧ f.category = some c := by
  obtain ⟨r, hr, hc⟩ := h
  refine ⟨r.category, ?_, hc⟩
  rw [Finding.catalogCategory?, hr]
  rfl

lemma having_catalogCategory? (h : ∀ f ∈ fs, Classified f) (c : String) :
    having Finding.catalogCategory? c fs = fs.filter fun f => f.category = some c := by
  refine List.filter_congr fun f hf => ?_
  obtain ⟨d, hcatalog, hcategory⟩ := catalogCategory?_of_classified (h f hf)
  rw [hcatalog, hcategory]

lemma groups_groupByCategory (fs : List Finding) :
    Groups Finding.catalogCategory? fs (groupByCategory fs).entries := groups_groupBy fs

lemma entries_byCategory (fs : List Finding) (n : ℕ) : (breakdown fs n).byCategory.entries =
    (groupByCategory fs).entries.map fun (c, items) => (c, items.length) :=
  KeyMap.entries_foldl_insert .empty _ (List.pairwise_map.mpr (groupByCategory fs).sorted)

lemma get?_byCategory (h : ∀ f ∈ fs, Classified f) (n : ℕ) (c : String) (k : ℕ) :
    (breakdown fs n).byCategory.get? c = some k ↔
      0 < k ∧ fs.countP (·.category = some c) = k := by
  have hgroups := groups_groupByCategory fs
  rw [← KeyMap.mem_entries_iff, entries_byCategory, List.mem_map]
  constructor
  · rintro ⟨⟨d, items⟩, hg, heq⟩
    obtain ⟨rfl, rfl⟩ := Prod.mk.inj heq
    obtain ⟨hitems, hne⟩ := (hgroups.mem_iff d items).mp hg
    rw [having_catalogCategory? h] at hitems
    refine ⟨List.length_pos_iff.mpr hne, ?_⟩
    rw [hitems, List.countP_eq_length_filter]
  · rintro ⟨hpos, rfl⟩
    obtain ⟨f, hf, hc⟩ := List.countP_pos_iff.mp hpos
    refine ⟨(c, having Finding.catalogCategory? c fs), (hgroups.mem_iff c _).mpr ⟨rfl, ?_⟩, ?_⟩
    · rw [having_catalogCategory? h]
      exact List.ne_nil_of_mem (List.mem_filter.mpr ⟨hf, hc⟩)
    · rw [having_catalogCategory? h, List.countP_eq_length_filter]

lemma sum_byCategory (h : ∀ f ∈ fs, Classified f) (n : ℕ) :
    ((breakdown fs n).byCategory.entries.map (·.2)).sum = fs.length := by
  have hall : (fs.filter fun f => f.catalogCategory?.isSome) = fs := by
    refine List.filter_eq_self.mpr fun f hf => ?_
    obtain ⟨c, hcatalog, -⟩ := catalogCategory?_of_classified (h f hf)
    rw [hcatalog, Option.isSome_some]
  have hperm := (groups_groupByCategory fs).flatMap_perm
  rw [entries_byCategory, List.map_map]
  calc ((groupByCategory fs).entries.map fun g => g.2.length).sum
    _ = ((groupByCategory fs).entries.flatMap (·.2)).length := List.length_flatMap.symm
    _ = (fs.filter fun f => f.catalogCategory?.isSome).length := hperm.length_eq
    _ = fs.length := by rw [hall]

/-- **The figures of findings add up** if every finding is classified as its rule is. -/
theorem tallied_breakdown (h : ∀ f ∈ fs, Classified f) (n : ℕ) : Tallied (breakdown fs n) fs where
  counts := rfl
  total := rfl
  severities := countP_severities fs
  categories := sum_byCategory h n
  category := get?_byCategory h n
  keys c := by
    have hkey : c ∈ (breakdown fs n).byCategory.keys ↔
        ∃ k, (breakdown fs n).byCategory.get? c = some k := by
      simp [KeyMap.keys, ← KeyMap.mem_entries_iff]
    simp only [hkey, get?_byCategory h, exists_eq_right', List.countP_pos_iff, decide_eq_true_eq]

end Categories

/-! ### Advice -/

section Advice

variable {fs gs : List Finding}

lemma map_eq_of_bare {β : Type} {g : Finding → β} (hg : ∀ f, g (bare f) = g f)
    (h : gs.map bare = fs.map bare) : gs.map g = fs.map g := by
  have hmap := congrArg (List.map g) h
  simpa only [List.map_map, Function.comp_def, hg] using hmap

lemma Tallied.congr {m : Metrics} (hm : Tallied m fs)
    (hseverity : gs.map (·.severity) = fs.map (·.severity))
    (hcategory : gs.map (·.category) = fs.map (·.category)) : Tallied m gs := by
  have hlength : gs.length = fs.length := by simpa using congrArg List.length hseverity
  have hcount : ∀ s, gs.countP (·.severity == s) = fs.countP (·.severity == s) := by
    intro s
    have h := congrArg (List.countP (· == s)) hseverity
    rwa [List.countP_map, List.countP_map] at h
  have hcounts : SeverityCounts.ofFindings gs = .ofFindings fs := by
    simp only [SeverityCounts.ofFindings, hcount, hlength]
  have hof : ∀ c, gs.countP (·.category = some c) = fs.countP (·.category = some c) := by
    intro c
    have h := congrArg (List.countP (· = some c)) hcategory
    rwa [List.countP_map, List.countP_map] at h
  have hkey : ∀ c, (∃ f ∈ gs, f.category = some c) ↔ ∃ f ∈ fs, f.category = some c := by
    intro c
    rw [← List.mem_map, ← List.mem_map, hcategory]
  exact
    { counts := hm.counts.trans hcounts.symm
      total := hm.total.trans hlength.symm
      severities := hm.severities
      categories := hm.categories.trans hlength.symm
      category := fun c n => by rw [hm.category, hof]
      keys := fun c => by rw [hm.keys, hkey] }

/-- **Reports on the same analysis are coherent together.** -/
theorem Coherent.of_same {a b : Report} (ha : Coherent a) (h : SameAnalysis a b) : Coherent b := by
  have hseverity : b.findings.map (·.severity) = a.findings.map (·.severity) :=
    map_eq_of_bare (fun _ => rfl) h.findings
  have hcategory : b.findings.map (·.category) = a.findings.map (·.category) :=
    map_eq_of_bare (fun _ => rfl) h.findings
  obtain ⟨m, hm, htallied⟩ := ha.metrics
  refine ⟨?_, m, h.metrics.trans hm, htallied.congr hseverity hcategory⟩
  rw [h.healthScore, ha.score, ScoreHalves.score_eq_of_perm (.of_eq hseverity)]

end Advice

/-! ### Reports -/

/-- The report on a run, whichever files it skipped. -/
def reportOf (warnings : List Rule.Warning) (ev : Evaluation) (project : ProjectInfo)
    (platform : Platform) (now : Instant) : Report where
  platform := platform
  timestamp := now
  project := project
  findings := ev.findings
  healthScore := score ev.findings
  summary := summarize ev.findings ev.filesAnalyzed (score ev.findings)
  metrics := some (breakdown ev.findings ev.filesAnalyzed)
  aiEnhanced := false
  aiModel := none
  aiError := none
  diagnostics := warnings.map (fun w => ⟨none, none, "config: " ++ w.message⟩) ++ ev.diagnostics

lemma analyze_eq (e : Engine) (presetName : String) (overrides : Rule.Overrides) (files : FileSet)
    (project : ProjectInfo) (platform : Platform) (now : Instant) :
    analyze e presetName overrides files project platform now =
      reportOf (Rule.resolve presetName overrides).2
        (e.run (Rule.resolve presetName overrides).1 files) project platform now := by
  rw [analyze]
  cases Rule.resolve presetName overrides
  rfl

/-- A report that agrees with a run and with itself, and goes on agreeing with itself under
advice. -/
structure SelfConsistent (warnings : List Rule.Warning) (ev : Evaluation) (r : Report) : Prop where
  findings : r.findings = ev.findings
  coherent : Coherent r
  filesAnalyzed : r.metrics.map (·.filesAnalyzed) = some ev.filesAnalyzed
  summary : r.summary = summarize r.findings ev.filesAnalyzed r.healthScore
  diagnostics : r.diagnostics =
    warnings.map (fun w => ⟨none, none, "config: " ++ w.message⟩) ++ ev.diagnostics
  unenhanced : r.aiEnhanced = false ∧ r.aiModel = none ∧ r.aiError = none
  advised : ∀ p ss log, ∀ c ∈ session p ss r log, Coherent c.after

section Reports

variable {cs : List Checker} {config : Rule.Config} {files : FileSet}

lemma coherent_session {r : Report} (hr : Coherent r) (p : Policy) (ss : List Settings)
    (log : Record) : ∀ c ∈ session p ss r log, Coherent c.after := by
  intro c hc
  obtain ⟨hsame, _, _, hrec⟩ := session_inv p ss r r log (.refl r) c hc
  exact hr.of_same (hsame.trans hrec.same)

lemma selfConsistent_reportOf {ev : Evaluation} (h : Possible cs config files ev)
    (warnings : List Rule.Warning) (project : ProjectInfo) (platform : Platform) (now : Instant) :
    SelfConsistent warnings ev (reportOf warnings ev project platform now) := by
  have hcoherent : Coherent (reportOf warnings ev project platform now) :=
    ⟨rfl, _, rfl, tallied_breakdown (classified_of_possible h) ev.filesAnalyzed⟩
  exact ⟨rfl, hcoherent, rfl, rfl, rfl, ⟨rfl, rfl, rfl⟩, coherent_session hcoherent⟩

/-- **A report agrees with itself**, whatever the checkers do, whenever the run is cancelled, and
whichever files it skips: score, figures and summary are those of the findings, the figures add up,
and the diagnostics are what could not be used of the settings and then what went wrong in the run.
Score and figures are still those of the findings after any calls for advice. -/
theorem report_selfConsistent (e : Engine) (presetName : String) (overrides : Rule.Overrides)
    (files : FileSet) (project : ProjectInfo) (platform : Platform) (now : Instant) :
    let settings := Rule.resolve presetName overrides
    SelfConsistent settings.2 (e.run settings.1 files)
      (analyze e presetName overrides files project platform now) ∧
    ∀ ev, Possible e.checkers settings.1 files ev →
      SelfConsistent settings.2 ev (reportOf settings.2 ev project platform now) := by
  rw [analyze_eq]
  intro settings
  have hreports : ∀ ev, Possible e.checkers settings.1 files ev →
      SelfConsistent settings.2 ev (reportOf settings.2 ev project platform now) :=
    fun ev h => selfConsistent_reportOf h settings.2 project platform now
  exact ⟨hreports _ (possible_run e settings.1 files), hreports⟩

/-- A preset that there is not, and a run that skipped files on both sides of one. -/
theorem report_selfConsistent_scattered :
    let settings := Rule.resolve "lenient" default
    Possible eager settings.1 threeFiles (scattered settings.1) ∧
    SelfConsistent settings.2 (scattered settings.1)
      (reportOf settings.2 (scattered settings.1) default default default) := by
  intro settings
  have hpossible := possible_scattered settings.1
  have hreports := report_selfConsistent ⟨eager, none⟩ "lenient" default threeFiles default default
    default
  exact ⟨hpossible, hreports.2 _ hpossible⟩

end Reports

end CodeHealth.Proofs.ReportCoherence
