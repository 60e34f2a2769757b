import CodeHealth.Advice.Enhancement
import CodeHealth.CommandLine.AdviceChoice
import CodeHealth.CommandLine.Host
import CodeHealth.Project.Analysis

/-!
The analysis as a command. The report is written out in any case; after that the findings alone
settle whether the command fails.
-/

namespace CodeHealth.CommandLine

namespace AnalyzeArgs

def root (a : AnalyzeArgs) : Path := a.path.getD ⟨"."⟩

def chosenFormat (a : AnalyzeArgs) (s : ProjectSettings) : Report.Format :=
  (a.format.or (s.defaults.format.bind fun name => (Report.Format.parse name).toOption)).getD
    .table

/-- The severity from which on a finding makes the command fail. -/
def threshold? (a : AnalyzeArgs) (s : ProjectSettings) : Option Severity :=
  a.failOn.or (s.defaults.failOn.bind fun name => (Severity.parse name).toOption)

def chosenPreset (a : AnalyzeArgs) (s : ProjectSettings) : String :=
  (a.preset.or s.preset).getD "recommended"

def overrides (a : AnalyzeArgs) (s : ProjectSettings) : Rule.Overrides where
  enabledRules := a.rules.or s.enabledRules
  categories := a.categories.or s.categories
  rules := s.rules

def wantsAdvice (a : AnalyzeArgs) (s : ProjectSettings) : Bool :=
  a.ai || s.advice.enabled.getD false

end AnalyzeArgs

/-- The report with advice, or with the reason why there is none. -/
def adviseOn {m : Type → Type} [Monad m] (host : Host m) (w : World) (args : AnalyzeArgs)
    (s : ProjectSettings) (r : Report) : m Report :=
  let user := UserSettings.load w.files w.environment
  let settings := args.advice.resolve s.advice user
  match settings.backend.key (w.environment settings.backend.keyVariable)
      (user.key? settings.backend) with
  | .ok key => Advice.enhance (host.service settings.backend key) settings r
  | .error u => pure (r.withoutAdvice u.message)

/-- The text of a report. A table in a file has no colours. -/
def reportText (w : World) (format : Report.Format) (toFile : Bool) (r : Report) : String :=
  let text := r.render format
  if format = .table ∧ (toFile ∨ !w.colours) then Ansi.strip text else text

/-- Whether findings are as heavy as the threshold or heavier. -/
def exceeds (threshold : Option Severity) (r : Report) : Bool :=
  threshold.any fun t => 0 < (SeverityCounts.ofFindings r.findings).atOrAbove t

def thresholdNote (threshold : Option Severity) : String :=
  match threshold with
  | some t => "Failing due to --fail-on=" ++ t.name ++ " threshold\n"
  | none => ""

def judged (threshold : Option Severity) (r : Report) (o : Outcome) : Outcome :=
  if exceeds threshold r then
    { o with errors := o.errors ++ thresholdNote threshold, exitCode := 1 }
  else o

def deliver {m : Type → Type} [Monad m] (host : Host m) (w : World) (format : Report.Format)
    (output : Option Path) (r : Report) : m (Except Obstacle Outcome) := do
  let text := reportText w format output.isSome r
  match output with
  | none => pure (.ok (.done text))
  | some p =>
    match ← host.save p text with
    | some fault => pure (.error ⟨"Failed to write report to " ++ p.text, some fault.message⟩)
    | none =>
      let note := w.paint .green "✓" ++ " Report written to " ++ w.paint .cyan p.text ++ "\n"
      pure (.ok ⟨"", note, 0⟩)

def analyzeCommand {m : Type → Type} [Monad m] (host : Host m) (w : World) (args : AnalyzeArgs) :
    m Outcome := do
  let s := ProjectSettings.load w.files args.root
  let engine : Engine := ⟨Check.builtin, none⟩
  match analyzeProject engine (args.chosenPreset s) (args.overrides s) w.files args.root w.now with
  | .error e => pure (.blocked ⟨e.message, none⟩)
  | .ok plain =>
    let report ← if args.wantsAdvice s then adviseOn host w args s plain else pure plain
    match ← deliver host w (args.chosenFormat s) args.output report with
    | .error o => pure (.blocked o)
    | .ok outcome => pure (judged (args.threshold? s) report outcome)

end CodeHealth.CommandLine
