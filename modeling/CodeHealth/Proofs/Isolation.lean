import CodeHealth.Proofs.Evaluation
import Mathlib.Data.List.Nodup

/-!
A checker that fails costs its own hits, and a file that cannot be read costs that file.

Checkers may fail on any files and in any way, and any files may be unreadable. What the run finds
is what it would find if the failing checkers had nothing to say there and the unreadable files
were not listed. Each failure leaves one diagnostic that names the file and the rule, and each
unreadable file leaves one that names the file.
-/

namespace CodeHealth.Proofs.Isolation

open CodeHealth.Check CodeHealth.Proofs.Evaluation CodeHealth.Proofs.FindingOrder

/-- An outcome with no hits where there was a failure. -/
def hitsOnly : Outcome → Outcome
  | .hits hs => .hits hs
  | .failed _ => .hits []
  | .crashed _ => .hits []

/-- The checker that has nothing to say where the given one fails. -/
def mute (c : Checker) : Checker := { c with check := fun s => hitsOnly (c.check s) }

def isReadable (files : FileSet) (p : Path) : Bool := (files.read p).toOption.isSome

def readable (files : FileSet) : FileSet :=
  { files with paths := files.paths.filter (isReadable files) }

/-- The checker is to look at the file, and does not come back with hits. -/
def FailsAt (config : Rule.Config) (files : FileSet) (c : Checker) (p : Path) : Prop :=
  ∃ content, files.read p = .ok content ∧ config.isEnabled c.ruleId = true ∧
    c.appliesTo p = true ∧ ∀ hs, outcomeAt config p content c ≠ .hits hs

def names (p : Path) (id : String) (d : Diagnostic) : Bool :=
  decide (d.file = some p ∧ d.ruleId = some id)

/-! ### Findings -/

section Findings

variable (config : Rule.Config) (p : Path) (content : String)

lemma activeCheckers_mute (cs : List Checker) :
    activeCheckers (cs.map mute) p config = (activeCheckers cs p config).map mute := by
  rw [activeCheckers, List.filter_map]
  rfl

lemma findingsAt_mute (c : Checker) :
    findingsAt config p content (mute c) = findingsAt config p content c := by
  have h : outcomeAt config p content (mute c) = hitsOnly (outcomeAt config p content c) := rfl
  have hid : (mute c).ruleId = c.ruleId := rfl
  have hnone : findingsOfHits c.ruleId p config [] = [] := by
    unfold findingsOfHits
    cases Rule.find? c.ruleId <;> rfl
  unfold findingsAt
  rw [h, hid]
  cases outcomeAt config p content c with
  | hits hs => rfl
  | failed m => exact hnone
  | crashed m => exact hnone

lemma evaluateFile_mute (cs : List Checker) :
    (evaluateFile (cs.map mute) config p content).findings =
      (evaluateFile cs config p content).findings := by
  have h : (fun c => findingsAt config p content (mute c)) = findingsAt config p content :=
    funext (findingsAt_mute config p content)
  rw [evaluateFile_eq, evaluateFile_eq, activeCheckers_mute, List.flatMap_map, h]

end Findings

section Files

variable (cs : List Checker) (config : Rule.Config) (files : FileSet)

lemma findings_mute (p : Path) :
    (outcomeOf (cs.map mute) config (readable files) p).findings =
      (outcomeOf cs config files p).findings := by
  have hread : (readable files).read p = files.read p := rfl
  cases h : files.read p with
  | ok content =>
    rw [outcomeOf_of_ok h, outcomeOf_of_ok (hread.trans h)]
    exact evaluateFile_mute config p content cs
  | error e => rw [outcomeOf_of_error h, outcomeOf_of_error (hread.trans h)]

lemma findings_of_not_readable {p : Path} (h : isReadable files p = false) :
    (outcomeOf cs config files p).findings = [] := by
  cases hr : files.read p with
  | ok content => simp [isReadable, hr, Except.toOption] at h
  | error e => rw [outcomeOf_of_error hr]; rfl

lemma flatMap_filter_readable (ps : List Path) :
    (ps.filter (isReadable files)).flatMap (fun p => (outcomeOf cs config files p).findings) =
      ps.flatMap fun p => (outcomeOf cs config files p).findings := by
  rw [flatMap_filter_eq]
  refine List.flatMap_congr fun p _ => ?_
  split
  case isTrue => rfl
  case isFalse h =>
    exact (findings_of_not_readable cs config files (Bool.eq_false_of_not_eq_true h)).symm

lemma isEvaluated_eq (p : Path) :
    (outcomeOf cs config files p).isEvaluated = isReadable files p := by
  cases h : files.read p with
  | ok content => simp [outcomeOf_of_ok h, isReadable, h, Except.toOption, FileOutcome.isEvaluated]
  | error e => simp [outcomeOf_of_error h, isReadable, h, Except.toOption, FileOutcome.isEvaluated]

end Files

/-! ### Diagnostics -/

section Diagnostics

variable {config : Rule.Config} {p : Path} {content : String}

lemma countP_treeFaults (cs : List Checker) (id : String) :
    (treeFaults config p content cs).countP (names p id) = 0 := by
  rw [List.countP_eq_zero]
  intro d hd
  simp [names, (of_mem_treeFaults hd).2]

lemma filter_faults {cs : List Checker} (hcs : (cs.map (·.ruleId)).Nodup) {c : Checker}
    (hc : c ∈ activeCheckers cs p config) :
    ((activeCheckers cs p config).flatMap (faultsAt config p content)).filter (names p c.ruleId) =
      (faultsAt config p content c).filter (names p c.ruleId) := by
  rw [List.filter_flatMap]
  refine flatMap_eq_of_key (nodup_activeCheckers config p hcs) hc fun b _ hb => ?_
  rw [List.filter_eq_nil_iff]
  intro d hd
  simp [names, (of_mem_faultsAt hd).2, hb]

lemma countP_evaluateFile {cs : List Checker} (hcs : (cs.map (·.ruleId)).Nodup) {c : Checker}
    (hc : c ∈ activeCheckers cs p config) :
    (evaluateFile cs config p content).diagnostics.countP (names p c.ruleId) =
      (faultsAt config p content c).length := by
  rw [evaluateFile_eq, List.countP_append, countP_treeFaults, Nat.zero_add,
    List.countP_eq_length_filter, filter_faults hcs hc, List.filter_eq_self.mpr]
  intro d hd
  simpa [names] using of_mem_faultsAt hd

lemma countP_evaluateFile_of_inactive {cs : List Checker} {c : Checker}
    (hcs : (cs.map (·.ruleId)).Nodup) (hmem : c ∈ cs) (hc : c ∉ activeCheckers cs p config) :
    (evaluateFile cs config p content).diagnostics.countP (names p c.ruleId) = 0 := by
  rw [evaluateFile_eq, List.countP_append, countP_treeFaults, Nat.zero_add, List.countP_eq_zero]
  intro d hd
  obtain ⟨b, hb, hdb⟩ := List.mem_flatMap.mp hd
  have hne : b.ruleId ≠ c.ruleId := by
    intro he
    have hbc : b = c := List.inj_on_of_nodup_map hcs (List.mem_filter.mp hb).1 hmem he
    exact hc (hbc ▸ hb)
  simp [names, (of_mem_faultsAt hdb).2, hne]

end Diagnostics

section Count

variable {cs : List Checker} {config : Rule.Config} {files : FileSet} {c : Checker} {p : Path}

lemma countP_outcomeOf_of_fails (hcs : (cs.map (·.ruleId)).Nodup) (hc : c ∈ cs)
    (h : FailsAt config files c p) :
    (outcomeOf cs config files p).diagnostics.countP (names p c.ruleId) = 1 := by
  obtain ⟨content, hread, hen, happ, hout⟩ := h
  obtain ⟨text, ht⟩ := faultsAt_of_no_hits hout
  rw [outcomeOf_of_ok hread, FileOutcome.diagnostics,
    countP_evaluateFile hcs ((mem_activeCheckers config p).mpr ⟨hc, hen, happ⟩), ht,
    List.length_singleton]

lemma countP_outcomeOf_of_not_fails (hcs : (cs.map (·.ruleId)).Nodup) (hc : c ∈ cs)
    (h : ¬ FailsAt config files c p) :
    (outcomeOf cs config files p).diagnostics.countP (names p c.ruleId) = 0 := by
  cases hread : files.read p with
  | error e => rw [outcomeOf_of_error hread]; simp [FileOutcome.diagnostics, names]
  | ok content =>
    rw [outcomeOf_of_ok hread, FileOutcome.diagnostics]
    by_cases hact : c ∈ activeCheckers cs p config
    · obtain ⟨-, hen, happ⟩ := (mem_activeCheckers config p).mp hact
      have hhits : ∃ hs, outcomeAt config p content c = .hits hs := by
        by_contra hno
        exact h ⟨content, hread, hen, happ, fun hs e => hno ⟨hs, e⟩⟩
      obtain ⟨hs, hhs⟩ := hhits
      rw [countP_evaluateFile hcs hact, faultsAt_of_hits hhs, List.length_nil]
    · exact countP_evaluateFile_of_inactive hcs hc hact

lemma countP_run (q : Diagnostic → Bool) (hq : ∀ d, q d = true → d.file = some p) :
    ((Engine.mk cs none).run config files).diagnostics.countP q =
      files.paths.count p * (outcomeOf cs config files p).diagnostics.countP q := by
  rw [run_eq]
  refine countP_flatMap_eq q files.paths p fun b _ hb => ?_
  rw [List.countP_eq_zero]
  intro d hd hqd
  have hfile := (file_of_mem_diagnostics hd).symm.trans (hq d hqd)
  exact hb (Option.some.inj hfile)

end Count

/-- **Failures are isolated.** For any checkers of distinct rules and any files: what is found is
what is found without the failing checkers and the unreadable files; a checker is named with a file
once for each time the file is listed if it fails there, and never otherwise; an unreadable file is
named once for each time it is listed; and the files that count as analyzed are the readable
ones. -/
theorem run_isolated (cs : List Checker) (config : Rule.Config) (files : FileSet)
    (hcs : (cs.map (·.ruleId)).Nodup) :
    let ev := (Engine.mk cs none).run config files
    ev.findings = ((Engine.mk (cs.map mute) none).run config (readable files)).findings ∧
    (∀ c ∈ cs, ∀ p, (FailsAt config files c p →
        ev.diagnostics.countP (names p c.ruleId) = files.paths.count p) ∧
      (¬ FailsAt config files c p → ev.diagnostics.countP (names p c.ruleId) = 0)) ∧
    (∀ p, isReadable files p = false →
      ev.diagnostics.countP (fun d => d.file = some p) = files.paths.count p) ∧
    ev.filesAnalyzed = files.paths.countP (isReadable files) := by
  have hnames : ∀ p id d, names p id d = true → d.file = some p := fun p id d h =>
    (of_decide_eq_true h).1
  refine ⟨?_, fun c hc p => ⟨fun h => ?_, fun h => ?_⟩, fun p h => ?_, ?_⟩
  · rw [run_eq, run_eq]
    simp only [findings_mute]
    rw [readable, flatMap_filter_readable]
  · rw [countP_run _ (hnames p _), countP_outcomeOf_of_fails hcs hc h, Nat.mul_one]
  · rw [countP_run _ (hnames p _), countP_outcomeOf_of_not_fails hcs hc h, Nat.mul_zero]
  · rw [countP_run _ fun d hd => of_decide_eq_true hd]
    cases hread : files.read p with
    | ok content => simp [isReadable, hread, Except.toOption] at h
    | error e => rw [outcomeOf_of_error hread]; simp [FileOutcome.diagnostics]
  · rw [run_eq]
    simp only [isEvaluated_eq]

/-- A checker that crashes on every file, and one that finds something in every file. -/
def shaky : List Checker :=
  [⟨"no-var", fun _ => true, fun _ => .crashed none⟩,
    ⟨"loose-equality", fun _ => true, fun _ => .hits [⟨1, 1, "m", none⟩]⟩]

/-- A file that can be read, and one that cannot. -/
def halfReadable : FileSet :=
  (MemoryFiles.mk [(⟨"b.js"⟩, none), (⟨"a.js"⟩, some "a == b")]).toFileSet

theorem run_isolated_shaky :
    let ev := (Engine.mk shaky none).run Rule.defaultConfig halfReadable
    (shaky.map (·.ruleId)).Nodup ∧
    ev.findings =
      ((Engine.mk (shaky.map mute) none).run Rule.defaultConfig (readable halfReadable)).findings ∧
    ev.diagnostics.countP (names ⟨"a.js"⟩ "no-var") = 1 ∧
    ev.diagnostics.countP (fun d => d.file = some ⟨"b.js"⟩) = 1 ∧ ev.filesAnalyzed = 1 := by
  have hcs : (shaky.map (·.ruleId)).Nodup := by decide
  obtain ⟨hfind, hfail, hread, hcount⟩ := run_isolated shaky Rule.defaultConfig halfReadable hcs
  have hfails : FailsAt Rule.defaultConfig halfReadable shaky[0] ⟨"a.js"⟩ :=
    ⟨"a == b", rfl, by decide +kernel, rfl, nofun⟩
  refine ⟨hcs, hfind, ?_, ?_, ?_⟩
  · exact (hfail shaky[0] (List.getElem_mem _) ⟨"a.js"⟩).1 hfails
  · exact hread ⟨"b.js"⟩ rfl
  · exact hcount

end CodeHealth.Proofs.Isolation
