import CodeHealth.Proofs.Evaluation
import Mathlib.Data.List.Forall2

/-!
What all runs over the same files have in common, whichever files they skip.

A run is cancelled from outside, and its files are shared out among workers, so it is not settled
which files it skips. Yet every file is either skipped or has the one outcome that it always has. So
every file is accounted for, and every finding is classified as its rule is.
-/

namespace CodeHealth.Proofs.PossibleRuns

open CodeHealth.Check CodeHealth.Proofs.Evaluation CodeHealth.Proofs.FindingOrder
open CodeHealth.Proofs.Resolution

variable {cs : List Checker} {config : Rule.Config} {files : FileSet}

/-- What a run comes to that skips some of the files. -/
def Possible (cs : List Checker) (config : Rule.Config) (files : FileSet) (ev : Evaluation) :
    Prop :=
  ∃ os, List.Forall₂ (fun p o => o = .skipped ∨ o = outcomeOf cs config files p) files.paths os ∧
    ev = .ofOutcomes os

lemma forall₂_outcomes (e : Engine) (config : Rule.Config) (files : FileSet) (done : ℕ)
    (ps : List Path) :
    List.Forall₂ (fun p o => o = .skipped ∨ o = outcomeOf e.checkers config files p) ps
      (e.outcomes config files done ps) := by
  induction ps generalizing done with
  | nil => exact .nil
  | cons p ps ih =>
    rw [Engine.outcomes]
    split
    · exact .cons (.inl rfl) (ih done)
    · exact .cons (.inr rfl) (ih (done + 1))

/-- **Every run is possible**, whenever it is cancelled. -/
theorem possible_run (e : Engine) (config : Rule.Config) (files : FileSet) :
    Possible e.checkers config files (e.run config files) :=
  ⟨_, forall₂_outcomes e config files 0 files.paths, rfl⟩

/-- A checker that finds something in every file. -/
def eager : List Checker := [⟨"loose-equality", fun _ => true, fun _ => .hits [⟨1, 1, "m", none⟩]⟩]

/-- A file that cannot be read, and two that can. -/
def threeFiles : FileSet :=
  (MemoryFiles.mk [(⟨"b.js"⟩, none), (⟨"a.js"⟩, some "a == b"), (⟨"c.js"⟩, some "")]).toFileSet

/-- A run of two workers, of which one comes too late for both of its files. -/
def scattered (config : Rule.Config) : Evaluation :=
  .ofOutcomes [.skipped, outcomeOf eager config threeFiles ⟨"a.js"⟩, .skipped]

lemma possible_scattered (config : Rule.Config) :
    Possible eager config threeFiles (scattered config) :=
  ⟨_, .cons (.inl rfl) (.cons (.inr rfl) (.cons (.inl rfl) .nil)), rfl⟩

/-! ### Files -/

/-- Whether a diagnostic tells that a file could not be read. -/
def isUnreadable (files : FileSet) (d : Diagnostic) : Bool :=
  match d.file with
  | none => false
  | some p =>
    match files.read p with
    | .ok _ => false
    | .error e => decide (d = ⟨some p, none, e.message⟩)

lemma isUnreadable_of_ok {p : Path} {content : String} {d : Diagnostic}
    (h : files.read p = .ok content) (hd : d.file = some p) : isUnreadable files d = false := by
  simp [isUnreadable, hd, h]

lemma isUnreadable_of_error {p : Path} {e : FileError} (h : files.read p = .error e) :
    isUnreadable files ⟨some p, none, e.message⟩ = true := by
  simp [isUnreadable, h]

lemma accounted_outcome {p : Path} {o : FileOutcome}
    (h : o = .skipped ∨ o = outcomeOf cs config files p) :
    (if o.isEvaluated then 1 else 0) + (if o.isSkipped then 1 else 0) +
      o.diagnostics.countP (isUnreadable files) = 1 := by
  rcases h with rfl | rfl
  · rfl
  cases hread : files.read p with
  | ok content =>
    have hnone : (outcomeOf cs config files p).diagnostics.countP (isUnreadable files) = 0 := by
      rw [List.countP_eq_zero]
      intro d hd
      rw [isUnreadable_of_ok hread (file_of_mem_diagnostics hd)]
      exact Bool.false_ne_true
    rw [hnone, outcomeOf_of_ok hread]
    rfl
  | error e =>
    rw [outcomeOf_of_error hread]
    simp [FileOutcome.isEvaluated, FileOutcome.isSkipped, FileOutcome.diagnostics,
      isUnreadable_of_error hread]

lemma accounted_outcomes {ps : List Path} {os : List FileOutcome}
    (h : List.Forall₂ (fun p o => o = .skipped ∨ o = outcomeOf cs config files p) ps os) :
    os.countP (·.isEvaluated) + os.countP (·.isSkipped) +
      (os.flatMap (·.diagnostics)).countP (isUnreadable files) = ps.length := by
  induction h with
  | nil => rfl
  | cons ho _ ih =>
    have hone := accounted_outcome ho
    rw [List.countP_cons, List.countP_cons, List.flatMap_cons, List.countP_append,
      List.length_cons]
    omega

/-- **Every file is analyzed, skipped, or told to be unreadable**, in every possible run. -/
theorem accounted_of_possible {ev : Evaluation} (h : Possible cs config files ev) :
    ev.filesAnalyzed + ev.filesSkipped + ev.diagnostics.countP (isUnreadable files) =
      files.paths.length := by
  obtain ⟨os, hos, rfl⟩ := h
  have hcancelled : (if 0 < os.countP (·.isSkipped)
      then [cancelledDiagnostic (os.countP (·.isSkipped)) os.length] else []).countP
        (isUnreadable files) = 0 := by
    split
    · simp [isUnreadable, cancelledDiagnostic]
    · rfl
  have hsum := accounted_outcomes hos
  simp only [Evaluation.ofOutcomes, List.countP_append, hcancelled]
  omega

/-! ### Findings -/

/-- A finding of a rule of the catalog, in the category of that rule. -/
def Classified (f : Finding) : Prop :=
  ∃ r, Rule.find? f.ruleId = some r ∧ f.category = some r.category

lemma classified_of_mem_findingsAt {p : Path} {content : String} {c : Checker} {f : Finding}
    (h : f ∈ findingsAt config p content c) : Classified f := by
  obtain ⟨r, hit, hr, rfl⟩ := exists_hit h
  refine ⟨r, ?_, rfl⟩
  rw [← hr, ← id_of_find? hr]
  rfl

lemma classified_of_mem_outcomeOf {p : Path} {f : Finding}
    (h : f ∈ (outcomeOf cs config files p).findings) : Classified f := by
  rw [findings_outcomeOf, mem_sort, foundIn] at h
  split at h
  · obtain ⟨c, -, hc⟩ := List.mem_flatMap.mp h
    unfold share at hc
    split at hc
    · exact classified_of_mem_findingsAt hc
    · cases hc
  · cases h

lemma classified_of_mem_outcomes {ps : List Path} {os : List FileOutcome}
    (h : List.Forall₂ (fun p o => o = .skipped ∨ o = outcomeOf cs config files p) ps os) :
    ∀ f ∈ os.flatMap (·.findings), Classified f := by
  induction h with
  | nil => exact List.forall_mem_nil _
  | cons ho _ ih =>
    rw [List.flatMap_cons, List.forall_mem_append]
    refine ⟨fun f hf => ?_, ih⟩
    rcases ho with rfl | rfl
    · cases hf
    · exact classified_of_mem_outcomeOf hf

/-- **Every finding is classified as its rule is**, in every possible run. -/
theorem classified_of_possible {ev : Evaluation} (h : Possible cs config files ev) :
    ∀ f ∈ ev.findings, Classified f := by
  obtain ⟨os, hos, rfl⟩ := h
  intro f hf
  exact classified_of_mem_outcomes hos f (mem_sort.mp hf)

end CodeHealth.Proofs.PossibleRuns
