import CodeHealth.Finding.Score
import CodeHealth.Instant
import CodeHealth.Project.Info

/-!
The report of an analysis.
-/

namespace CodeHealth

structure Report where
  platform : Platform
  timestamp : Instant
  project : ProjectInfo
  findings : List Finding
  healthScore : Float
  summary : String
  metrics : Option Metrics
  /-- Whether summary and suggestions come from a model. -/
  aiEnhanced : Bool
  /-- The model that they come from. -/
  aiModel : Option String
  /-- Why they do not come from a model, if one was asked. -/
  aiError : Option String
  diagnostics : List Diagnostic
deriving Inhabited

end CodeHealth
