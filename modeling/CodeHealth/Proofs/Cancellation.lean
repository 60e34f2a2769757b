import CodeHealth.Proofs.PossibleRuns

/-!
Runs that are cancelled.

A run is cancelled by a flag. The flag is looked at before each file, and it may be raised before
the run or from within a report of progress, which comes after each file. If it is raised when `k`
files are done, the run is that over the first `k` files, and the others are skipped.
-/

namespace CodeHealth.Proofs.Cancellation

open CodeHealth.Check CodeHealth.Proofs.Evaluation CodeHealth.Proofs.PossibleRuns

/-! ### The flag -/

/-- A run on its way, with its flag and what came of the files so far. -/
structure Worker where
  raised : Bool
  done : ℕ
  outcomes : List FileOutcome
  calls : List Progress

/-- The flag is raised at once if no file is to be done. -/
def start (k : ℕ) : Worker := ⟨decide (k = 0), 0, [], []⟩

section Flag

variable (cs : List Checker) (config : Rule.Config) (files : FileSet) (k total : ℕ)

/-- One file. The flag is looked at first, and the report of progress raises it if `k` files are
done. -/
def step (w : Worker) (p : Path) : Worker :=
  if w.raised then { w with outcomes := w.outcomes ++ [.skipped] }
  else
    { raised := decide (w.done + 1 = k)
      done := w.done + 1
      outcomes := w.outcomes ++ [outcomeOf cs config files p]
      calls := w.calls ++ [⟨p, w.done + 1, total⟩] }

def work (w : Worker) (ps : List Path) : Worker := ps.foldl (step cs config files k total) w

/-- The flag is raised when `k` files are done, and no sooner. -/
def InTime (w : Worker) : Prop := w.done ≤ k ∧ w.raised = decide (k ≤ w.done)

variable {cs config files k total}

lemma inTime_start : InTime k (start k) := by simp [InTime, start]

lemma inTime_step {w : Worker} (hw : InTime k w) (p : Path) :
    InTime k (step cs config files k total w p) := by
  obtain ⟨hdone, hraised⟩ := hw
  unfold step
  split
  · exact ⟨hdone, hraised⟩
  · next hno =>
    rw [hraised, decide_eq_true_iff] at hno
    exact ⟨by simp only; omega, by simp only [decide_eq_decide]; omega⟩

lemma isCancelled_eq (done : ℕ) :
    (Engine.mk cs (some k)).isCancelled done = decide (k ≤ done) := rfl

lemma progress_of_isCancelled {e : Engine} {done : ℕ} (h : e.isCancelled done = true)
    (ps : List Path) : e.progress total done ps = [] := by
  cases ps with
  | nil => rfl
  | cons p ps => rw [Engine.progress, if_pos h]

/-- **The flag cancels a run when `k` files are done**: what comes of the files and what is
reported is what comes of a run that counts its files. -/
lemma work_eq {w : Worker} (hw : InTime k w) (ps : List Path) :
    (work cs config files k total w ps).outcomes =
        w.outcomes ++ (Engine.mk cs (some k)).outcomes config files w.done ps ∧
      (work cs config files k total w ps).calls =
        w.calls ++ (Engine.mk cs (some k)).progress total w.done ps := by
  induction ps generalizing w with
  | nil => simp [work, Engine.outcomes, Engine.progress]
  | cons p ps ih =>
    -- the flag and the count agree on whether the run is cancelled
    have hflag : (Engine.mk cs (some k)).isCancelled w.done = w.raised := hw.2.symm
    have hnext : InTime k (step cs config files k total w p) := inTime_step hw p
    obtain ⟨houtcomes, hcalls⟩ := ih hnext
    rw [work, List.foldl_cons, ← work, houtcomes, hcalls, Engine.outcomes, Engine.progress, hflag]
    cases hr : w.raised with
    | true =>
      rw [hr] at hflag
      simp [step, hr, progress_of_isCancelled hflag]
    | false => simp [step, hr]

end Flag

/-! ### The files that are started -/

section Started

variable (cs : List Checker) (config : Rule.Config) (files : FileSet) (k : ℕ)

lemma outcomes_cancelled (done : ℕ) (ps : List Path) :
    (Engine.mk cs (some k)).outcomes config files done ps =
      (ps.take (k - done)).map (outcomeOf cs config files) ++
        List.replicate (ps.length - (k - done)) .skipped := by
  induction ps generalizing done with
  | nil => simp [Engine.outcomes]
  | cons p ps ih =>
    by_cases hk : k ≤ done
    · have hzero : k - done = 0 := Nat.sub_eq_zero_of_le hk
      rw [Engine.outcomes, isCancelled_eq, decide_eq_true hk, if_pos rfl, ih, hzero]
      simp [List.replicate_succ]
    · have hsucc : k - done = (k - (done + 1)) + 1 := by omega
      rw [Engine.outcomes, isCancelled_eq, decide_eq_false hk, if_neg Bool.false_ne_true, ih, hsucc]
      simp

lemma progress_cancelled (total done : ℕ) (ps : List Path) :
    (Engine.mk cs (some k)).progress total done ps =
      ((ps.take (k - done)).zipIdx (done + 1)).map fun (p, i) => ⟨p, i, total⟩ := by
  induction ps generalizing done with
  | nil => simp [Engine.progress]
  | cons p ps ih =>
    by_cases hk : k ≤ done
    · have hzero : k - done = 0 := Nat.sub_eq_zero_of_le hk
      rw [Engine.progress, isCancelled_eq, decide_eq_true hk, if_pos rfl, hzero]
      rfl
    · have hsucc : k - done = (k - (done + 1)) + 1 := by omega
      rw [Engine.progress, isCancelled_eq, decide_eq_false hk, if_neg Bool.false_ne_true, ih, hsucc]
      simp

lemma ofOutcomes_append_skipped {os : List FileOutcome} (hos : ∀ o ∈ os, o.isSkipped = false)
    (j : ℕ) : Evaluation.ofOutcomes (os ++ List.replicate j .skipped) =
      { Evaluation.ofOutcomes os with
        diagnostics := (Evaluation.ofOutcomes os).diagnostics ++
          (if 0 < j then [cancelledDiagnostic j (os.length + j)] else [])
        filesSkipped := j } := by
  have hnone : os.countP (·.isSkipped) = 0 := by
    rw [List.countP_eq_zero]
    intro o ho
    simp [hos o ho]
  have hskipped : (List.replicate j FileOutcome.skipped).countP (·.isSkipped) = j := by
    rw [List.countP_replicate]
    rfl
  have hevaluated : (List.replicate j FileOutcome.skipped).countP (·.isEvaluated) = 0 := by
    rw [List.countP_replicate]
    rfl
  have hfindings : (List.replicate j FileOutcome.skipped).flatMap (·.findings) = [] :=
    List.flatMap_eq_nil_iff.mpr fun o ho => by rw [List.eq_of_mem_replicate ho]; rfl
  have hdiagnostics : (List.replicate j FileOutcome.skipped).flatMap (·.diagnostics) = [] :=
    List.flatMap_eq_nil_iff.mpr fun o ho => by rw [List.eq_of_mem_replicate ho]; rfl
  simp only [Evaluation.ofOutcomes, List.flatMap_append, List.countP_append, List.length_append,
    List.length_replicate, hnone, hskipped, hevaluated, hfindings, hdiagnostics, Nat.zero_add,
    Nat.add_zero, List.append_nil, Nat.lt_irrefl, if_false]

def firstFiles (files : FileSet) (k : ℕ) : FileSet := { files with paths := files.paths.take k }

lemma run_cancelled_eq : (Engine.mk cs (some k)).run config files =
    { (Engine.mk cs none).run config (firstFiles files k) with
      diagnostics := ((Engine.mk cs none).run config (firstFiles files k)).diagnostics ++
        (if k < files.paths.length
          then [cancelledDiagnostic (files.paths.length - k) files.paths.length] else [])
      filesSkipped := files.paths.length - min k files.paths.length } := by
  have hstarted : ∀ o ∈ (files.paths.take k).map (outcomeOf cs config files),
      o.isSkipped = false := by
    intro o ho
    obtain ⟨p, -, rfl⟩ := List.mem_map.mp ho
    exact not_isSkipped_outcomeOf cs config files p
  have hfirst : (Engine.mk cs none).run config (firstFiles files k) =
      .ofOutcomes ((files.paths.take k).map (outcomeOf cs config files)) := by
    rw [Engine.run, outcomes_eq_map]
    rfl
  rw [Engine.run, outcomes_cancelled, Nat.sub_zero, ofOutcomes_append_skipped hstarted, hfirst]
  rcases Nat.lt_or_ge k files.paths.length with hk | hk
  · simp [hk, Nat.min_eq_left hk.le, Nat.sub_pos_of_lt hk, Nat.add_sub_of_le hk.le]
  · simp [Nat.sub_eq_zero_of_le hk, Nat.min_eq_right hk, Nat.not_lt.mpr hk]

end Started

/-- **Cancellation cuts a run short and changes nothing else.** If the flag is raised when `k` files
are done, the first `k` files are started and reported on in their order, and the others are
skipped. What is found is what a run over the first `k` files finds, with one more diagnostic if
there are others. Whichever files a run skips, every file is analyzed, skipped or told to be
unreadable. -/
theorem run_cancelled (cs : List Checker) (config : Rule.Config) (files : FileSet) (k : ℕ) :
    let n := files.paths.length
    let e := Engine.mk cs (some k)
    let flagged := work cs config files k n (start k) files.paths
    let first := (Engine.mk cs none).run config (firstFiles files k)
    (flagged.outcomes = e.outcomes config files 0 files.paths ∧
      flagged.calls = e.progress n 0 files.paths) ∧
    e.outcomes config files 0 files.paths =
      (files.paths.take (min k n)).map (outcomeOf cs config files) ++
        List.replicate (n - min k n) .skipped ∧
    e.progress n 0 files.paths =
      ((files.paths.take (min k n)).zipIdx 1).map (fun (p, i) => ⟨p, i, n⟩) ∧
    (e.run config files).filesSkipped = n - min k n ∧
    (e.run config files).findings = first.findings ∧
    (e.run config files).filesAnalyzed = first.filesAnalyzed ∧
    (e.run config files).diagnostics =
      first.diagnostics ++ (if k < n then [cancelledDiagnostic (n - k) n] else []) ∧
    (∀ cancelAfter, Possible cs config files ((Engine.mk cs cancelAfter).run config files)) ∧
    ∀ ev, Possible cs config files ev →
      ev.filesAnalyzed + ev.filesSkipped + ev.diagnostics.countP (isUnreadable files) = n := by
  intro n e flagged first
  have htake : files.paths.take (min k n) = files.paths.take k := by
    rw [← List.take_take, List.take_length]
  have hlen : n - min k n = n - k := by omega
  have hrun := run_cancelled_eq cs config files k
  refine ⟨work_eq inTime_start files.paths, ?_, ?_, ?_, ?_, ?_, ?_,
    fun cancelAfter => possible_run ⟨cs, cancelAfter⟩ config files,
    fun ev => accounted_of_possible⟩
  · rw [htake, hlen]
    exact outcomes_cancelled cs config files k 0 files.paths
  · rw [htake]
    exact progress_cancelled cs k n 0 files.paths
  · rw [hrun]
  · rw [hrun]
  · rw [hrun]
  · rw [hrun]

theorem run_cancelled_scattered :
    Possible eager Rule.defaultConfig threeFiles (scattered Rule.defaultConfig) ∧
    (scattered Rule.defaultConfig).filesAnalyzed + (scattered Rule.defaultConfig).filesSkipped +
      (scattered Rule.defaultConfig).diagnostics.countP (isUnreadable threeFiles) = 3 ∧
    ((Engine.mk eager (some 1)).run Rule.defaultConfig threeFiles).filesSkipped = 2 := by
  have hpossible := possible_scattered Rule.defaultConfig
  obtain ⟨-, -, -, hskipped, -, -, -, -, hall⟩ :=
    run_cancelled eager Rule.defaultConfig threeFiles 1
  exact ⟨hpossible, hall _ hpossible, hskipped⟩

end CodeHealth.Proofs.Cancellation
