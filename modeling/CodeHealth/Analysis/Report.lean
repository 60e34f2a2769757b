import CodeHealth.Analysis.Evaluation
import CodeHealth.Report.Basic

/-!
Analysis of a set of files: settings are resolved, the files are evaluated, and the findings are
scored.
-/

namespace CodeHealth

/-- The report on a set of files. What could not be used of the settings comes first among the
diagnostics. -/
def analyze (e : Engine) (presetName : String) (overrides : Rule.Overrides) (files : FileSet)
    (project : ProjectInfo) (platform : Platform) (now : Instant) : Report :=
  let (config, warnings) := Rule.resolve presetName overrides
  let ev := e.run config files
  let health := score ev.findings
  { platform := platform
    timestamp := now
    project := project
    findings := ev.findings
    healthScore := health
    summary := summarize ev.findings ev.filesAnalyzed health
    metrics := some (breakdown ev.findings ev.filesAnalyzed)
    aiEnhanced := false
    aiModel := none
    aiError := none
    diagnostics := warnings.map (fun w => ⟨none, none, "config: " ++ w.message⟩) ++
      ev.diagnostics }

end CodeHealth
