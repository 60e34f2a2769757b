import CodeHealth.Proofs.PresetOrder
import CodeHealth.Proofs.ReportCoherence

/-!
The command fails at a threshold if and only if the analysis found something as heavy.

The decision is taken last, from the findings of the report that was written out, so it has to be
shown that no way to that report changes how heavy they are: advice may be given, refused or not be
asked for. Services and files behave as they like here; whatever they do changes a state that the
next of them may look at.
-/

namespace CodeHealth.Proofs.ThresholdGate

open CodeHealth.CommandLine CodeHealth.Proofs.PresetOrder CodeHealth.Proofs.Provenance
open CodeHealth.Proofs.ReportCoherence

section Advice

variable {σ : Type} (host : Host (StateM σ)) (w : World) (args : AnalyzeArgs)
  (s : ProjectSettings)

/-- The report that is written out: with advice if it is wanted. -/
def advised (plain : Report) : StateM σ Report :=
  if args.wantsAdvice s then adviseOn host w args s plain else pure plain

lemma run_bind_of_run {α β : Type} {x : StateM σ α} {st st' : σ} {r : α}
    (h : x.run st = (r, st')) (f : α → StateM σ β) : (x >>= f).run st = (f r).run st' := by
  rw [StateT.run_bind, h]
  rfl

lemma sameAnalysis_advised (plain : Report) (st : σ) :
    SameAnalysis plain ((advised host w args s plain).run st).1 := by
  unfold advised adviseOn
  split
  · dsimp only
    split
    · exact sameAnalysis_reconcile _ plain _
    · exact ⟨rfl, rfl, rfl, rfl, rfl, rfl, rfl⟩
  · exact .refl plain

/-- A report that is written out ends the command without a failure so far. -/
lemma exitCode_of_deliver {format : Report.Format} {output : Option Path} {r : Report} {st : σ}
    {out : Outcome} (h : ((deliver host w format output r).run st).1 = .ok out) :
    out.exitCode = 0 := by
  cases output with
  | none =>
    obtain rfl := Except.ok.inj h
    rfl
  | some p =>
    rw [deliver, Option.isSome_some] at h
    rcases hsave : (host.save p (reportText w format true r)).run st with ⟨fault | fault, st'⟩
    · rw [run_bind_of_run hsave] at h
      obtain rfl := Except.ok.inj h
      rfl
    · rw [run_bind_of_run hsave] at h
      cases h

lemma analyzeCommand_eq {plain : Report}
    (h : analyzeProject ⟨Check.builtin, none⟩ (args.chosenPreset (.load w.files args.root))
      (args.overrides (.load w.files args.root)) w.files args.root w.now = .ok plain) :
    analyzeCommand host w args = (do
      let report ← advised host w args (.load w.files args.root) plain
      match ← deliver host w (args.chosenFormat (.load w.files args.root)) args.output report with
      | .error o => pure (.blocked o)
      | .ok outcome =>
        pure (judged (args.threshold? (.load w.files args.root)) report outcome)) := by
  rw [analyzeCommand]
  simp only [h, advised]
  split <;> rfl

end Advice

/-! ### The decision -/

/-- Some finding is as heavy as a severity, or heavier. -/
def Reaches (t : Severity) (fs : List Finding) : Prop := ∃ f ∈ fs, f.severity.atLeast t = true

lemma exceeds_iff (t : Severity) (r : Report) :
    exceeds (some t) r = true ↔ Reaches t r.findings := by
  rw [exceeds, Option.any_some, decide_eq_true_iff, atOrAbove_eq, List.countP_pos_iff]
  rfl

lemma Reaches.mono {t t' : Severity} (h : t.atLeast t' = true) {fs : List Finding}
    (hfs : Reaches t fs) : Reaches t' fs := by
  obtain ⟨f, hf, ht⟩ := hfs
  exact ⟨f, hf, atLeast_trans h ht⟩

lemma reaches_iff_severity (t : Severity) (fs : List Finding) :
    Reaches t fs ↔ ∃ s ∈ fs.map (·.severity), s.atLeast t = true := by simp [Reaches]

lemma reaches_congr {a b : Report} (h : SameAnalysis a b) (t : Severity) :
    Reaches t b.findings ↔ Reaches t a.findings := by
  have hseverity : b.findings.map (·.severity) = a.findings.map (·.severity) :=
    map_eq_of_bare (fun _ => rfl) h.findings
  rw [reaches_iff_severity, reaches_iff_severity, hseverity]

/-! ### The command -/

/-- A run of the command on a project that is there, with the report written out. -/
structure Analysis where
  /-- What services and files may look at and change. -/
  State : Type
  host : Host (StateM State)
  world : World
  args : AnalyzeArgs
  start : State
  /-- The report before advice. -/
  plain : Report
  /-- What the command has come to when the report is written out. -/
  delivered : Outcome
  analyzed : analyzeProject ⟨Check.builtin, none⟩
      (args.chosenPreset (.load world.files args.root))
      (args.overrides (.load world.files args.root)) world.files args.root world.now = .ok plain
  written : ((do
      let report ← advised host world args (.load world.files args.root) plain
      deliver host world (args.chosenFormat (.load world.files args.root)) args.output report).run
        start).1 = .ok delivered

namespace Analysis

variable (a : Analysis)

def settings : ProjectSettings := .load a.world.files a.args.root

lemma settings_eq : a.settings = .load a.world.files a.args.root := rfl

/-- The severity at which the command fails, given or said by the project. -/
def threshold? : Option Severity := a.args.threshold? a.settings

def outcome : Outcome := ((analyzeCommand a.host a.world a.args).run a.start).1

/-- The command fails because of the threshold, and says so. -/
def FailsAt (t : Severity) : Prop :=
  a.outcome = { a.delivered with
    errors := a.delivered.errors ++ thresholdNote (some t)
    exitCode := 1 }

def Succeeds : Prop := a.outcome = a.delivered ∧ a.outcome.exitCode = 0

lemma outcome_eq : ∃ report, SameAnalysis a.plain report ∧
    a.outcome = judged a.threshold? report a.delivered ∧ a.delivered.exitCode = 0 := by
  rcases hadvised : (advised a.host a.world a.args a.settings a.plain).run a.start with
    ⟨report, st⟩
  have hsame : SameAnalysis a.plain report := by
    simpa only [hadvised] using
      sameAnalysis_advised a.host a.world a.args a.settings a.plain a.start
  rcases hdeliver : (deliver a.host a.world (a.args.chosenFormat a.settings) a.args.output
    report).run st with ⟨o, st'⟩
  obtain rfl : o = .ok a.delivered := by
    have hwritten := a.written
    rwa [← a.settings_eq, run_bind_of_run hadvised, hdeliver] at hwritten
  refine ⟨report, hsame, ?_, exitCode_of_deliver a.host a.world (congrArg Prod.fst hdeliver)⟩
  rw [outcome, analyzeCommand_eq a.host a.world a.args a.analyzed, ← a.settings_eq,
    run_bind_of_run hadvised, run_bind_of_run hdeliver]
  rfl

lemma failsAt_of_reaches {t : Severity} (ht : a.threshold? = some t)
    (h : Reaches t a.plain.findings) : a.FailsAt t := by
  obtain ⟨report, hsame, hout, -⟩ := a.outcome_eq
  have hexceeds : exceeds (some t) report = true :=
    (exceeds_iff t report).mpr ((reaches_congr hsame t).mpr h)
  rw [FailsAt, hout, ht, judged, if_pos hexceeds]

lemma succeeds_of_not_reaches (h : ∀ t, a.threshold? = some t → ¬ Reaches t a.plain.findings) :
    a.Succeeds := by
  obtain ⟨report, hsame, hout, hexit⟩ := a.outcome_eq
  have hexceeds : ¬ exceeds a.threshold? report = true := by
    cases ht : a.threshold? with
    | none => exact Bool.false_ne_true
    | some t => exact fun he => h t ht ((reaches_congr hsame t).mp ((exceeds_iff t report).mp he))
  rw [judged, if_neg hexceeds] at hout
  exact ⟨hout, hout ▸ hexit⟩

lemma not_succeeds_of_failsAt {t : Severity} (h : a.FailsAt t) : ¬ a.Succeeds := by
  intro hs
  have hone : a.outcome.exitCode = 1 := congrArg Outcome.exitCode h
  exact absurd (hone.symm.trans hs.2) (by decide)

lemma failsAt_iff {t : Severity} (ht : a.threshold? = some t) :
    a.FailsAt t ↔ Reaches t a.plain.findings := by
  refine ⟨fun hfails => ?_, a.failsAt_of_reaches ht⟩
  by_contra h
  refine a.not_succeeds_of_failsAt hfails (a.succeeds_of_not_reaches fun t' ht' => ?_)
  rwa [Option.some.inj (ht'.symm.trans ht)]

/-- Two runs look at the same project with the same rules. They may differ in the format and the
file of the report, in the threshold, and in all that has to do with advice. -/
structure SameWork (a b : Analysis) : Prop where
  files : a.world.files = b.world.files
  now : a.world.now = b.world.now
  root : a.args.root = b.args.root
  preset : a.args.chosenPreset a.settings = b.args.chosenPreset b.settings
  rules : a.args.overrides a.settings = b.args.overrides b.settings

lemma SameWork.plain_eq {a b : Analysis} (h : SameWork a b) : a.plain = b.plain := by
  have ha := a.analyzed
  have hb := b.analyzed
  rw [← settings_eq] at ha hb
  rw [h.files, h.now, h.root, h.preset, h.rules, hb] at ha
  exact (Except.ok.inj ha).symm

end Analysis

/-- **The command fails at its threshold if and only if the analysis found something as heavy.**
Without a threshold, or with lighter findings alone, it comes to what it had come to when the report
was written out. On one project and with the same rules the decision is the same whatever is asked
for and comes of it besides; and what fails at a heavier threshold fails at every lighter one. -/
theorem fails_iff_reaches :
    (∀ (a : Analysis) (t : Severity), a.threshold? = some t →
      (a.FailsAt t ↔ ∃ f ∈ a.plain.findings, f.severity.atLeast t = true) ∧
      (a.Succeeds ↔ ¬ a.FailsAt t)) ∧
    (∀ a : Analysis, a.threshold? = none → a.Succeeds) ∧
    (∀ (a b : Analysis) (t : Severity), a.SameWork b → a.threshold? = some t →
      b.threshold? = some t → (a.FailsAt t ↔ b.FailsAt t)) ∧
    ∀ (a b : Analysis) (t t' : Severity), a.SameWork b → a.threshold? = some t →
      b.threshold? = some t' → t.atLeast t' = true → a.FailsAt t → b.FailsAt t' := by
  refine ⟨fun a t ht => ⟨a.failsAt_iff ht, ?_⟩, fun a ht => ?_, fun a b t hwork ha hb => ?_,
    fun a b t t' hwork ha hb hle hfails => ?_⟩
  · refine ⟨fun hs hf => a.not_succeeds_of_failsAt hf hs, fun hf => ?_⟩
    refine a.succeeds_of_not_reaches fun t' ht' hreaches => hf ?_
    rw [a.failsAt_iff ht]
    rwa [Option.some.inj (ht.symm.trans ht')]
  · exact a.succeeds_of_not_reaches fun t ht' => absurd (ht.symm.trans ht') (by simp)
  · rw [a.failsAt_iff ha, b.failsAt_iff hb, hwork.plain_eq]
  · rw [b.failsAt_iff hb, ← hwork.plain_eq]
    exact ((a.failsAt_iff ha).mp hfails).mono hle

/-! A project with one finding, a warning, on a machine with a key for every service. -/

def oldScript : FileSystem :=
  ⟨.directory [("src", .directory [("a.js", .file "var x = 1;\n".toUTF8)])], []⟩

def keyedWorld : World := ⟨oldScript, fun _ => some "sk-1", default, true⟩

/-- Services that answer once and count the requests, and files that can all be written. -/
def onceHost : Host (StateM ℕ) where
  service _ _ :=
    { ask := fun _ => modifyGet fun n =>
        (if n = 0 then .ok "\x7b\"summary\": \"Fine.\"\x7d" else .error (.timeout 30), n + 1)
      wait := fun _ => pure () }
  save _ _ := pure none

/-- One rule is checked, and the report goes to a file. -/
def oneRule (format : Report.Format) (failOn : Severity) (ai : Bool) : AnalyzeArgs where
  path := none
  preset := none
  categories := none
  rules := some ["no-var"]
  format := some format
  output := some ⟨"report.txt"⟩
  workers := none
  failOn := some failOn
  ai := ai
  noProgress := false
  advice := ⟨none, none, none, none, none, none⟩

def oldReport : Except MissingRoot Report :=
  let args := oneRule .table .info false
  let s := ProjectSettings.load oldScript args.root
  analyzeProject ⟨Check.builtin, none⟩ (args.chosenPreset s) (args.overrides s) oldScript
    args.root default

lemma oldReport_severities :
    ∃ r, oldReport = .ok r ∧ r.findings.map (·.severity) = [.warning] := by
  have hwarns : oldReport.toOption.map (fun r => r.findings.map (·.severity)) = some [.warning] :=
    by decide +kernel
  cases hreport : oldReport with
  | error e =>
    rw [hreport] at hwarns
    cases hwarns
  | ok r =>
    rw [hreport] at hwarns
    exact ⟨r, rfl, Option.some.inj hwarns⟩

/-- The project is analyzed in one of several ways. -/
def oldRun (format : Report.Format) (failOn : Severity) (ai : Bool) {r : Report}
    (h : oldReport = .ok r) : Analysis where
  State := ℕ
  host := onceHost
  world := keyedWorld
  args := oneRule format failOn ai
  start := 0
  plain := r
  delivered :=
    ⟨"", keyedWorld.paint .green "✓" ++ " Report written to " ++
      keyedWorld.paint .cyan "report.txt" ++ "\n", 0⟩
  analyzed := h
  written := rfl

/-- The warning fails a run that asks for advice and two that do not, but none that fails at errors
alone. -/
theorem fails_iff_reaches_old : ∃ (r : Report) (h : oldReport = .ok r),
    (oldRun .json .warning true h).FailsAt .warning ∧
    (oldRun .table .warning false h).FailsAt .warning ∧
    (oldRun .markdown .info false h).FailsAt .info ∧
    (oldRun .table .error true h).Succeeds := by
  obtain ⟨r, h, hseverities⟩ := oldReport_severities
  have hreaches (t : Severity) :
      Reaches t r.findings ↔ Severity.warning.atLeast t = true := by
    simp [reaches_iff_severity, hseverities]
  have hwork : ∀ format failOn ai,
      (oldRun .json .warning true h).SameWork (oldRun format failOn ai h) :=
    fun _ _ _ => ⟨rfl, rfl, rfl, rfl, rfl⟩
  obtain ⟨hfails, -, hsame, hlighter⟩ := fails_iff_reaches
  have hfirst := (hfails (oldRun .json .warning true h) .warning rfl).1.mpr
    ((hreaches .warning).mpr rfl)
  have herrors := hfails (oldRun .table .error true h) .error rfl
  refine ⟨r, h, hfirst, (hsame _ _ .warning (hwork ..) rfl rfl).mp hfirst,
    hlighter _ _ .warning .info (hwork ..) rfl rfl rfl hfirst, herrors.2.mpr fun hf => ?_⟩
  exact absurd ((hreaches .error).mp (herrors.1.mp hf)) (by decide)

end CodeHealth.Proofs.ThresholdGate
