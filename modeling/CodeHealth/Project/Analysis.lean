import CodeHealth.Analysis.Report
import CodeHealth.Project.Discovery
import CodeHealth.Project.Manifest

/-!
Analysis of a project on a file system. A root that is no directory is the one fault that leaves
nothing to report; all others become diagnostics of the report.
-/

namespace CodeHealth

def analyzeProject (e : Engine) (presetName : String) (overrides : Rule.Overrides)
    (fs : FileSystem) (root : Path) (now : Instant) : Except MissingRoot Report := do
  let files ← discover fs root
  let (project, platform) := projectInfo fs root
  pure (analyze e presetName overrides files project platform now)

end CodeHealth
