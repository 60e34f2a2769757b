import CodeHealth.Analysis.Report
import CodeHealth.Proofs.Evaluation
import Mathlib.Data.List.Perm.Basic

/-!
The order of files and checkers does not show.

Findings are sorted twice, once for each file and once for the run, and ties keep their order. Ties
come from one checker on one file, whatever the order in which files are listed and checkers are
given; so the findings are the same list each time, and the list of a file is cut out of the list
of the run.
-/

namespace CodeHealth.Proofs.OrderIndependence

open CodeHealth.Check CodeHealth.Proofs.Evaluation CodeHealth.Proofs.FindingOrder

/-- No two paths of a list are spellings of one path. -/
def Distinct (ps : List Path) : Prop := ps.Pairwise fun a b => a.same b = false

lemma nodup_components {ps : List Path} (h : Distinct ps) : (ps.map Path.components).Nodup :=
  List.pairwise_map.mpr (h.imp fun hab => by simpa [Path.same] using hab)

/-! ### One file -/

section File

variable (config : Rule.Config) (p : Path) (content : String)

lemma evaluateFile_perm {cs cs' : List Checker} (hp : cs.Perm cs')
    (hcs : (cs.map (·.ruleId)).Nodup) :
    (evaluateFile cs config p content).findings = (evaluateFile cs' config p content).findings := by
  rw [evaluateFile_eq, evaluateFile_eq]
  refine sort_congr fun x => ?_
  rw [List.filter_flatMap, List.filter_flatMap]
  refine flatMap_eq_of_perm (activeCheckers_perm config p hp)
    (nodup_activeCheckers config p hcs) x.ruleId fun c _ hc => ?_
  rw [List.filter_eq_nil_iff]
  intro f hf htied
  exact hc ((of_mem_findingsAt hf).2.symm.trans ((tied_iff x f).mp htied).2.2.2.symm)

lemma evaluateFile_diagnostics_perm {cs cs' : List Checker} (hp : cs.Perm cs') :
    (evaluateFile cs config p content).diagnostics.Perm
      (evaluateFile cs' config p content).diagnostics := by
  have hact := activeCheckers_perm config p hp
  rw [evaluateFile_eq, evaluateFile_eq, treeFaults, treeFaults, hact.isEmpty_eq]
  exact (hact.flatMap_right _).append_left _

lemma sorted_evaluateFile (cs : List Checker) :
    Sorted (evaluateFile cs config p content).findings := by
  rw [evaluateFile_eq]
  exact sorted_sort _

end File

section Outcome

variable {cs cs' : List Checker} {config : Rule.Config} {files : FileSet} {p : Path}

lemma findings_perm (hp : cs.Perm cs') (hcs : (cs.map (·.ruleId)).Nodup) :
    (outcomeOf cs config files p).findings = (outcomeOf cs' config files p).findings := by
  cases h : files.read p with
  | ok content =>
    rw [outcomeOf_of_ok h, outcomeOf_of_ok h]
    exact evaluateFile_perm config p content hp hcs
  | error e => rw [outcomeOf_of_error h, outcomeOf_of_error h]

lemma diagnostics_perm (hp : cs.Perm cs') :
    (outcomeOf cs config files p).diagnostics.Perm (outcomeOf cs' config files p).diagnostics := by
  cases h : files.read p with
  | ok content =>
    rw [outcomeOf_of_ok h, outcomeOf_of_ok h]
    exact evaluateFile_diagnostics_perm config p content hp
  | error e => rw [outcomeOf_of_error h, outcomeOf_of_error h]

lemma isEvaluated_perm :
    (outcomeOf cs config files p).isEvaluated = (outcomeOf cs' config files p).isEvaluated := by
  cases h : files.read p with
  | ok content => rw [outcomeOf_of_ok h, outcomeOf_of_ok h]; rfl
  | error e => rw [outcomeOf_of_error h, outcomeOf_of_error h]

lemma sorted_findings : Sorted (outcomeOf cs config files p).findings := by
  cases h : files.read p with
  | ok content =>
    rw [outcomeOf_of_ok h]
    exact sorted_evaluateFile config p content cs
  | error e =>
    rw [outcomeOf_of_error h]
    exact List.Pairwise.nil

end Outcome

/-! ### A run -/

section Run

variable {cs cs' : List Checker} {config : Rule.Config} {ps ps' : List Path}
  {read : Path → Except FileError String}

lemma run_findings_perm (hps : Distinct ps) (hp : ps.Perm ps') (hcs : (cs.map (·.ruleId)).Nodup)
    (hc : cs.Perm cs') :
    ((Engine.mk cs none).run config ⟨ps, read⟩).findings =
      ((Engine.mk cs' none).run config ⟨ps', read⟩).findings := by
  have hout : ∀ p, outcomeOf cs config ⟨ps, read⟩ p = outcomeOf cs config ⟨ps', read⟩ p :=
    fun p => rfl
  simp only [run_eq, hout, findings_perm hc hcs]
  refine sort_congr fun x => ?_
  rw [List.filter_flatMap, List.filter_flatMap]
  refine flatMap_eq_of_perm hp (nodup_components hps) x.file.components fun p _ hne => ?_
  rw [List.filter_eq_nil_iff]
  intro f hf htied
  have hsame := ((tied_iff x f).mp htied).1
  rw [file_of_mem_findings hf, same_iff] at hsame
  exact hne hsame.symm

lemma run_diagnostics_perm (hp : ps.Perm ps') (hc : cs.Perm cs') :
    ((Engine.mk cs none).run config ⟨ps, read⟩).diagnostics.Perm
      ((Engine.mk cs' none).run config ⟨ps', read⟩).diagnostics := by
  simp only [run_eq]
  exact (List.Perm.flatMap_left ps fun p _ => diagnostics_perm hc).trans (hp.flatMap_right _)

lemma run_filesAnalyzed_perm (hp : ps.Perm ps') :
    ((Engine.mk cs none).run config ⟨ps, read⟩).filesAnalyzed =
      ((Engine.mk cs' none).run config ⟨ps', read⟩).filesAnalyzed := by
  simp only [run_eq]
  rw [hp.countP_eq]
  exact List.countP_congr fun p _ => by rw [isEvaluated_perm]; rfl

lemma filter_run_findings (hps : Distinct ps) {p : Path} (hp : p ∈ ps) :
    ((Engine.mk cs none).run config ⟨ps, read⟩).findings.filter (fun f => f.file.same p) =
      (outcomeOf cs config ⟨ps, read⟩ p).findings := by
  have hothers : ∀ q ∈ ps, q.components ≠ p.components →
      (outcomeOf cs config ⟨ps, read⟩ q).findings.filter (fun f => f.file.same p) = [] := by
    intro q _ hq
    rw [List.filter_eq_nil_iff]
    intro f hf
    rw [file_of_mem_findings hf]
    simpa [Path.same] using hq
  have hown : (outcomeOf cs config ⟨ps, read⟩ p).findings.filter (fun f => f.file.same p) =
      (outcomeOf cs config ⟨ps, read⟩ p).findings := by
    rw [List.filter_eq_self]
    intro f hf
    rw [file_of_mem_findings hf]
    exact same_refl p
  rw [run_eq, filter_sort, List.filter_flatMap, flatMap_eq_of_key (nodup_components hps) hp hothers,
    hown, sort_of_sorted sorted_findings]

end Run

/-- **Order does not show.** Files with distinct paths, and checkers of distinct rules: in whatever
order they come, the findings are the same list, and with them the number of analyzed files, score,
figures and summary; the diagnostics are the same up to their order. The findings of each file are
the list that it has by itself. -/
theorem run_order_independent (cs cs' : List Checker) (config : Rule.Config) (ps ps' : List Path)
    (read : Path → Except FileError String) (hps : Distinct ps) (hcs : (cs.map (·.ruleId)).Nodup)
    (hp : ps.Perm ps') (hc : cs.Perm cs') :
    let ev := (Engine.mk cs none).run config ⟨ps, read⟩
    let ev' := (Engine.mk cs' none).run config ⟨ps', read⟩
    ev'.findings = ev.findings ∧ ev'.filesAnalyzed = ev.filesAnalyzed ∧
    ev'.diagnostics.Perm ev.diagnostics ∧
    (∀ p ∈ ps, ∀ content, read p = .ok content →
      ev.findings.filter (fun f => f.file.same p) =
        (evaluateFile cs config p content).findings) ∧
    ∀ name overrides project platform now,
      let r := analyze ⟨cs, none⟩ name overrides ⟨ps, read⟩ project platform now
      let r' := analyze ⟨cs', none⟩ name overrides ⟨ps', read⟩ project platform now
      r'.findings = r.findings ∧ r'.healthScore = r.healthScore ∧ r'.metrics = r.metrics ∧
        r'.summary = r.summary ∧ r'.diagnostics.Perm r.diagnostics := by
  have hfind : ∀ config, ((Engine.mk cs' none).run config ⟨ps', read⟩).findings =
      ((Engine.mk cs none).run config ⟨ps, read⟩).findings := fun config =>
    (run_findings_perm hps hp hcs hc).symm
  have hcount : ∀ config, ((Engine.mk cs' none).run config ⟨ps', read⟩).filesAnalyzed =
      ((Engine.mk cs none).run config ⟨ps, read⟩).filesAnalyzed := fun config =>
    (run_filesAnalyzed_perm hp).symm
  have hdiag : ∀ config, ((Engine.mk cs' none).run config ⟨ps', read⟩).diagnostics.Perm
      ((Engine.mk cs none).run config ⟨ps, read⟩).diagnostics := fun config =>
    (run_diagnostics_perm hp hc).symm
  refine ⟨hfind config, hcount config, hdiag config, fun p hmem content hread => ?_,
    fun name overrides project platform now => ?_⟩
  · rw [filter_run_findings hps hmem, outcomeOf_of_ok hread]
    rfl
  · simp only [analyze, hfind, hcount]
    exact ⟨trivial, trivial, trivial, trivial, (hdiag _).append_left _⟩

/-- A checker that finds its rule violated twice at one place, the later advice first. -/
def stutter (id : String) : Checker :=
  ⟨id, fun _ => true, fun s => .hits [⟨2, 1, id, s.path.text⟩, ⟨2, 1, id, none⟩, ⟨0, 0, id, none⟩]⟩

theorem run_order_independent_stutter :
    let cs := [stutter "no-var", stutter "loose-equality"]
    let ps : List Path := [⟨"src/b.js"⟩, ⟨"src/./a.js"⟩]
    let read : Path → Except FileError String := fun _ => .ok "var x;"
    let ev := (Engine.mk cs none).run Rule.defaultConfig ⟨ps, read⟩
    let ev' := (Engine.mk cs.reverse none).run Rule.defaultConfig ⟨ps.reverse, read⟩
    Distinct ps ∧ (cs.map (·.ruleId)).Nodup ∧ ps.Perm ps.reverse ∧ cs.Perm cs.reverse ∧
    ev'.findings = ev.findings ∧
    ev.findings.filter (fun f => f.file.same ⟨"src/./a.js"⟩) =
      (evaluateFile cs Rule.defaultConfig ⟨"src/./a.js"⟩ "var x;").findings := by
  intro cs ps read ev ev'
  have hps : Distinct ps := List.pairwise_pair.mpr (by decide +kernel)
  have hcs : (cs.map (·.ruleId)).Nodup := by decide
  have hp : ps.Perm ps.reverse := (List.reverse_perm ps).symm
  have hc : cs.Perm cs.reverse := (List.reverse_perm cs).symm
  obtain ⟨hfind, -, -, hfile, -⟩ :=
    run_order_independent cs cs.reverse Rule.defaultConfig ps ps.reverse read hps hcs hp hc
  exact ⟨hps, hcs, hp, hc, hfind, hfile ⟨"src/./a.js"⟩ (by simp [ps]) "var x;" rfl⟩

end CodeHealth.Proofs.OrderIndependence
