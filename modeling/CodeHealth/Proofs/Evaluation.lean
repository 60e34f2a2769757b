import CodeHealth.Analysis.Evaluation
import CodeHealth.Proofs.FindingOrder
import CodeHealth.Proofs.Resolution

/-!
What is found, taken apart by file and by checker.

The findings of a file are those of its active checkers, sorted; the findings of a run are those
of its files, sorted again. A finding names the file and the rule that it comes from, so of all
findings those of one place and rule come from one checker on one file.
-/

namespace CodeHealth.Proofs.Evaluation

open CodeHealth.Check CodeHealth.Proofs.FindingOrder CodeHealth.Proofs.Resolution

/-! ### Parts with keys -/

section Keys

variable {α β κ : Type} {key : α → κ} {g : α → List β}

/-- If only parts of one key have anything, the one part of that key is all there is. -/
lemma flatMap_eq_of_key {l : List α} (hl : (l.map key).Nodup) {a : α} (ha : a ∈ l)
    (h : ∀ b ∈ l, key b ≠ key a → g b = []) : l.flatMap g = g a := by
  induction l with
  | nil => cases ha
  | cons b l ih =>
    rw [List.map_cons, List.nodup_cons] at hl
    rw [List.flatMap_cons]
    rcases List.mem_cons.mp ha with rfl | ha
    · have hrest : l.flatMap g = [] := List.flatMap_eq_nil_iff.mpr fun c hc =>
        h c (List.mem_cons_of_mem _ hc) fun hk => hl.1 (hk ▸ List.mem_map_of_mem hc)
      rw [hrest, List.append_nil]
    · have hb : g b = [] := h b List.mem_cons_self fun hk =>
        hl.1 (hk ▸ List.mem_map_of_mem ha)
      rw [hb, List.nil_append, ih hl.2 ha fun c hc => h c (List.mem_cons_of_mem _ hc)]

/-- If only parts of one key have anything, the order of the parts does not matter. -/
lemma flatMap_eq_of_perm {l l' : List α} (hp : l.Perm l') (hl : (l.map key).Nodup) (k : κ)
    (h : ∀ b ∈ l, key b ≠ k → g b = []) : l.flatMap g = l'.flatMap g := by
  by_cases hk : ∃ a ∈ l, key a = k
  · obtain ⟨a, ha, rfl⟩ := hk
    rw [flatMap_eq_of_key hl ha h, flatMap_eq_of_key ((hp.map key).nodup_iff.mp hl)
      (hp.mem_iff.mp ha) fun b hb => h b (hp.mem_iff.mpr hb)]
  · have hnil : ∀ b ∈ l, g b = [] := fun b hb => h b hb fun e => hk ⟨b, hb, e⟩
    rw [List.flatMap_eq_nil_iff.mpr hnil,
      List.flatMap_eq_nil_iff.mpr fun b hb => hnil b (hp.mem_iff.mpr hb)]

/-- What only one element has is counted as often as the element stands in the list. -/
lemma countP_flatMap_eq [DecidableEq α] (q : β → Bool) (l : List α) (a : α)
    (h : ∀ b ∈ l, b ≠ a → (g b).countP q = 0) :
    (l.flatMap g).countP q = l.count a * (g a).countP q := by
  induction l with
  | nil => simp
  | cons b l ih =>
    rw [List.flatMap_cons, List.countP_append, List.count_cons,
      ih fun c hc => h c (List.mem_cons_of_mem _ hc)]
    by_cases hb : b = a
    · subst hb
      rw [beq_self_eq_true, if_pos rfl, Nat.add_mul, Nat.one_mul, Nat.add_comm]
    · rw [h b List.mem_cons_self hb, beq_false_of_ne hb, if_neg Bool.false_ne_true]
      simp

lemma flatMap_filter_eq (q : α → Bool) (g : α → List β) (l : List α) :
    (l.filter q).flatMap g = l.flatMap fun a => if q a then g a else [] := by
  induction l with
  | nil => rfl
  | cons a l ih =>
    rw [List.flatMap_cons, ← ih]
    cases h : q a with
    | true => rw [List.filter_cons_of_pos h, List.flatMap_cons, if_pos rfl]
    | false => rw [List.filter_cons_of_neg (by simp [h]), if_neg nofun, List.nil_append]

end Keys

/-! ### One file -/

variable (config : Rule.Config) (p : Path) (content : String)

/-- What a checker of a rule may look at in a file. -/
def sourceFor (ruleId : String) : Source :=
  ⟨p, content.toList, Text.mask content.toList, (treeOfFile p content.toList).1,
    config.optionsFor ruleId⟩

def outcomeAt (c : Checker) : Outcome := c.check (sourceFor config p content c.ruleId)

def findingsAt (c : Checker) : List Finding :=
  (evaluateOutcome c.ruleId p config (outcomeAt config p content c)).1

def faultsAt (c : Checker) : List Diagnostic :=
  (evaluateOutcome c.ruleId p config (outcomeAt config p content c)).2

/-- What a checker adds to the findings of a file, if it is to look at it. -/
def share (c : Checker) : List Finding :=
  if config.isEnabled c.ruleId && c.appliesTo p then findingsAt config p content c else []

/-- What is told about the tree of a file that some checker looks at. -/
def treeFaults (cs : List Checker) : List Diagnostic :=
  if (activeCheckers cs p config).isEmpty then [] else (treeOfFile p content.toList).2

lemma evaluateFile_eq (cs : List Checker) : evaluateFile cs config p content =
    ⟨Finding.sort ((activeCheckers cs p config).flatMap (findingsAt config p content)),
      treeFaults config p content cs ++
        (activeCheckers cs p config).flatMap (faultsAt config p content)⟩ := by
  unfold evaluateFile treeFaults
  cases activeCheckers cs p config with
  | nil => simp [Finding.sort]
  | cons c cs => simp only [List.flatMap_map]; rfl

lemma findings_evaluateFile (cs : List Checker) : (evaluateFile cs config p content).findings =
    Finding.sort (cs.flatMap (share config p content)) := by
  simp only [evaluateFile_eq, activeCheckers, flatMap_filter_eq]
  rfl

lemma activeCheckers_perm {cs cs' : List Checker} (h : cs.Perm cs') :
    (activeCheckers cs p config).Perm (activeCheckers cs' p config) := h.filter _

lemma nodup_activeCheckers {cs : List Checker} (h : (cs.map (·.ruleId)).Nodup) :
    ((activeCheckers cs p config).map (·.ruleId)).Nodup :=
  h.sublist (List.filter_sublist.map _)

lemma mem_activeCheckers {cs : List Checker} {c : Checker} :
    c ∈ activeCheckers cs p config ↔
      c ∈ cs ∧ config.isEnabled c.ruleId = true ∧ c.appliesTo p = true := by
  simp [activeCheckers]

variable {config p content}

lemma exists_hit {c : Checker} {f : Finding} (h : f ∈ findingsAt config p content c) :
    ∃ r hit, Rule.find? c.ruleId = some r ∧
      f = .ofHit r ((config.severityFor r.id).getD r.severity) p hit := by
  unfold findingsAt at h
  cases ho : outcomeAt config p content c with
  | failed m => simp [ho, evaluateOutcome] at h
  | crashed m => simp [ho, evaluateOutcome] at h
  | hits hs =>
    simp only [ho, evaluateOutcome, findingsOfHits] at h
    cases hr : Rule.find? c.ruleId with
    | none => simp [hr] at h
    | some r =>
      simp only [hr, List.mem_map] at h
      obtain ⟨hit, -, rfl⟩ := h
      exact ⟨r, hit, rfl, rfl⟩

lemma of_mem_findingsAt {c : Checker} {f : Finding} (h : f ∈ findingsAt config p content c) :
    f.file = p ∧ f.ruleId = c.ruleId := by
  obtain ⟨r, hit, hr, rfl⟩ := exists_hit h
  exact ⟨rfl, id_of_find? hr⟩

lemma file_of_mem_evaluateFile {cs : List Checker} {f : Finding}
    (h : f ∈ (evaluateFile cs config p content).findings) : f.file = p := by
  rw [evaluateFile_eq, mem_sort, List.mem_flatMap] at h
  obtain ⟨c, -, hc⟩ := h
  exact (of_mem_findingsAt hc).1

/-- A checker that comes back with hits has nothing to tell besides. -/
lemma faultsAt_of_hits {c : Checker} {hs : List Hit} (h : outcomeAt config p content c = .hits hs) :
    faultsAt config p content c = [] := by
  rw [faultsAt, h]
  rfl

lemma faultsAt_of_no_hits {c : Checker} (h : ∀ hs, outcomeAt config p content c ≠ .hits hs) :
    ∃ text, faultsAt config p content c = [⟨some p, some c.ruleId, text⟩] := by
  unfold faultsAt
  cases ho : outcomeAt config p content c with
  | hits hs => exact absurd ho (h hs)
  | failed m => exact ⟨_, rfl⟩
  | crashed m => exact ⟨_, rfl⟩

lemma of_mem_faultsAt {c : Checker} {d : Diagnostic} (h : d ∈ faultsAt config p content c) :
    d.file = some p ∧ d.ruleId = some c.ruleId := by
  by_cases hh : ∃ hs, outcomeAt config p content c = .hits hs
  · obtain ⟨hs, hh⟩ := hh
    rw [faultsAt_of_hits hh] at h
    cases h
  · obtain ⟨text, ht⟩ := faultsAt_of_no_hits fun hs e => hh ⟨hs, e⟩
    rw [ht, List.mem_singleton] at h
    subst h
    exact ⟨rfl, rfl⟩

lemma of_mem_treeFaults {cs : List Checker} {d : Diagnostic}
    (h : d ∈ treeFaults config p content cs) : d.file = some p ∧ d.ruleId = none := by
  unfold treeFaults at h
  split at h
  · cases h
  · unfold treeOfFile at h
    split at h
    · cases h
    · split at h
      · cases h
      · rw [List.mem_singleton] at h
        subst h
        exact ⟨rfl, rfl⟩

/-! ### A run -/

lemma outcomes_eq_map (cs : List Checker) (config : Rule.Config) (files : FileSet) (done : ℕ)
    (ps : List Path) :
    (Engine.mk cs none).outcomes config files done ps = ps.map (outcomeOf cs config files) := by
  induction ps generalizing done with
  | nil => rfl
  | cons p ps ih =>
    simp only [Engine.outcomes, Engine.isCancelled, Option.any_none, Bool.false_eq_true, if_false,
      List.map_cons, ih]

lemma not_isSkipped_outcomeOf (cs : List Checker) (config : Rule.Config) (files : FileSet)
    (p : Path) : (outcomeOf cs config files p).isSkipped = false := by
  unfold outcomeOf
  split <;> rfl

lemma run_eq (cs : List Checker) (config : Rule.Config) (files : FileSet) :
    (Engine.mk cs none).run config files =
      { findings := Finding.sort
          (files.paths.flatMap fun p => (outcomeOf cs config files p).findings)
        diagnostics := files.paths.flatMap fun p => (outcomeOf cs config files p).diagnostics
        filesAnalyzed := files.paths.countP fun p => (outcomeOf cs config files p).isEvaluated
        filesSkipped := 0 } := by
  have hskip : (files.paths.map (outcomeOf cs config files)).countP (·.isSkipped) = 0 := by
    rw [List.countP_eq_zero]
    intro o ho
    obtain ⟨p, -, rfl⟩ := List.mem_map.mp ho
    simp [not_isSkipped_outcomeOf]
  rw [Engine.run, outcomes_eq_map]
  simp only [Evaluation.ofOutcomes, hskip, List.flatMap_map, List.countP_map, Function.comp_def,
    Nat.lt_irrefl, if_false, List.append_nil]

section Found

variable (cs : List Checker) (config : Rule.Config) (files : FileSet)

/-- What checkers find in a file of the set, one checker after the other. -/
def foundIn (p : Path) : List Finding :=
  match files.read p with
  | .ok content => cs.flatMap (share config p content)
  | .error _ => []

lemma findings_outcomeOf (p : Path) :
    (outcomeOf cs config files p).findings = Finding.sort (foundIn cs config files p) := by
  unfold outcomeOf foundIn
  cases files.read p with
  | ok content => simp only [FileOutcome.findings, findings_evaluateFile]
  | error e => simp [FileOutcome.findings, Finding.sort]

lemma run_findings_eq : ((Engine.mk cs none).run config files).findings =
    Finding.sort (files.paths.flatMap (foundIn cs config files)) := by
  rw [run_eq]
  simp only [findings_outcomeOf]
  exact sort_flatMap_sort files.paths _

end Found

section Outcome

variable {cs : List Checker} {config : Rule.Config} {files : FileSet} {p : Path}

lemma outcomeOf_of_ok {content : String} (h : files.read p = .ok content) :
    outcomeOf cs config files p = .evaluated (evaluateFile cs config p content) := by
  simp [outcomeOf, h]

lemma outcomeOf_of_error {e : FileError} (h : files.read p = .error e) :
    outcomeOf cs config files p = .unreadable ⟨some p, none, e.message⟩ := by
  simp [outcomeOf, h]

lemma file_of_mem_findings {f : Finding} (h : f ∈ (outcomeOf cs config files p).findings) :
    f.file = p := by
  cases hr : files.read p with
  | ok content =>
    rw [outcomeOf_of_ok hr] at h
    exact file_of_mem_evaluateFile h
  | error e =>
    rw [outcomeOf_of_error hr] at h
    cases h

lemma file_of_mem_diagnostics {d : Diagnostic}
    (h : d ∈ (outcomeOf cs config files p).diagnostics) : d.file = some p := by
  cases hr : files.read p with
  | ok content =>
    rw [outcomeOf_of_ok hr, FileOutcome.diagnostics, evaluateFile_eq, List.mem_append] at h
    rcases h with h | h
    · exact (of_mem_treeFaults h).1
    · obtain ⟨c, -, hc⟩ := List.mem_flatMap.mp h
      exact (of_mem_faultsAt hc).1
  | error e =>
    rw [outcomeOf_of_error hr, FileOutcome.diagnostics, List.mem_singleton] at h
    subst h
    rfl

end Outcome

end CodeHealth.Proofs.Evaluation
