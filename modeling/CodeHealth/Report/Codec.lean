import CodeHealth.Json.Reader
import CodeHealth.Json.Record
import CodeHealth.Report.Basic
import CodeHealth.Word

/-!
The report in JSON: writing, and reading back. Optional parts that are not there are left out, and
so is an empty list of diagnostics.
-/

namespace CodeHealth

open Json

/-- A field that is left out when its value is not there. -/
def fieldIfSome {α : Type} (name : String) (encode : α → Json) : Option α → List (String × Json)
  | some a => [(name, encode a)]
  | none => []

/-! ### Severities and platforms -/

def Severity.toJson (s : Severity) : Json := .string s.name

def Severity.ofJson? (j : Json) : Option Severity := j.name?.bind Severity.ofName?

def Platform.toJson (p : Platform) : Json := .string p.name

def Platform.ofJson? (j : Json) : Option Platform := j.name?.bind Platform.ofName?

def Path.toJson (p : Path) : Json := .string p.text

def Path.ofJson? (j : Json) : Option Path := j.asString?.map Path.mk

/-! ### Findings -/

def Finding.toJson (f : Finding) : Json :=
  .object <|
    [("ruleId", .string f.ruleId), ("message", .string f.message),
      ("severity", f.severity.toJson), ("file", f.file.toJson), ("line", .ofNat f.line),
      ("column", .ofNat f.column)] ++
    fieldIfSome "suggestion" .string f.suggestion ++ fieldIfSome "category" .string f.category

def Finding.ofJson? (j : Json) : Option Finding := do
  let names := ["ruleId", "message", "severity", "file", "line", "column", "suggestion", "category"]
  let r ← j.record? names ["suggestion", "category"]
  pure {
    ruleId := ← required? asString? r "ruleId"
    message := ← required? asString? r "message"
    severity := ← required? Severity.ofJson? r "severity"
    file := ← required? Path.ofJson? r "file"
    line := ← required? (asNatBelow? Word.bound32) r "line"
    column := ← required? (asNatBelow? Word.bound32) r "column"
    suggestion := ← optional? asString? r "suggestion"
    category := ← optional? asString? r "category" }

/-! ### Diagnostics -/

def Diagnostic.toJson (d : Diagnostic) : Json :=
  .object <|
    fieldIfSome "file" Path.toJson d.file ++ fieldIfSome "ruleId" .string d.ruleId ++
    [("message", .string d.message)]

def Diagnostic.ofJson? (j : Json) : Option Diagnostic := do
  let r ← j.record? ["file", "ruleId", "message"] []
  pure {
    file := ← optional? Path.ofJson? r "file"
    ruleId := ← optional? asString? r "ruleId"
    message := ← required? asString? r "message" }

/-! ### Figures -/

def SeverityCounts.toJson (c : SeverityCounts) : Json :=
  .object [("error", .ofNat c.error), ("warning", .ofNat c.warning), ("info", .ofNat c.info),
    ("total", .ofNat c.total)]

def SeverityCounts.ofJson? (j : Json) : Option SeverityCounts := do
  let r ← j.record? ["error", "warning", "info", "total"] []
  let count := required? (asNatBelow? Word.bound64) r
  pure { error := ← count "error", warning := ← count "warning", info := ← count "info",
         total := ← count "total" }

def Metrics.toJson (m : Metrics) : Json :=
  .object [("bySeverity", m.bySeverity.toJson),
    ("byCategory", .object (m.byCategory.entries.map fun (c, n) => (c, .ofNat n))),
    ("filesAnalyzed", .ofNat m.filesAnalyzed)]

def Metrics.ofJson? (j : Json) : Option Metrics := do
  let r ← j.record? ["bySeverity", "byCategory", "filesAnalyzed"] []
  pure {
    bySeverity := ← required? SeverityCounts.ofJson? r "bySeverity"
    byCategory := .ofList (← required? (table? (asNatBelow? Word.bound64)) r "byCategory")
    filesAnalyzed := ← required? (asNatBelow? Word.bound64) r "filesAnalyzed" }

/-! ### Projects -/

def ProjectInfo.toJson (p : ProjectInfo) : Json :=
  .object [("projectName", .string p.name), ("framework", .string p.framework),
    ("version", .string p.version), ("dependencies", strings p.dependencies),
    ("devDependencies", strings p.devDependencies)]

def ProjectInfo.ofJson? (j : Json) : Option ProjectInfo := do
  let names := ["projectName", "framework", "version", "dependencies", "devDependencies"]
  let r ← j.record? names ["dependencies", "devDependencies"]
  pure {
    name := ← required? asString? r "projectName"
    framework := ← required? asString? r "framework"
    version := ← required? asString? r "version"
    dependencies := ← defaulted? (list? asString?) [] r "dependencies"
    devDependencies := ← defaulted? (list? asString?) [] r "devDependencies" }

/-! ### Reports -/

namespace Report

def fieldsBehindTime (r : Report) : List (String × Json) :=
  [("project", r.project.toJson), ("findings", .array (r.findings.map (·.toJson))),
    ("healthScore", .float r.healthScore), ("summary", .string r.summary)] ++
  fieldIfSome "metrics" Metrics.toJson r.metrics ++
  [("aiEnhanced", .bool r.aiEnhanced)] ++
  fieldIfSome "aiModel" .string r.aiModel ++ fieldIfSome "aiError" .string r.aiError ++
  (if r.diagnostics.isEmpty then []
    else [("diagnostics", .array (r.diagnostics.map (·.toJson)))])

def toJson (r : Report) : Json :=
  .object <| [("platform", r.platform.toJson), ("timestamp", .string r.timestamp.write)] ++
    r.fieldsBehindTime

def toJsonWithoutTime (r : Report) : Json :=
  .object <| ("platform", r.platform.toJson) :: r.fieldsBehindTime

def ofJson? (j : Json) : Option Report := do
  let names := ["platform", "timestamp", "project", "findings", "healthScore", "summary",
    "metrics", "aiEnhanced", "aiModel", "aiError", "diagnostics"]
  let r ← j.record? names (names.drop 6)
  pure {
    platform := ← required? Platform.ofJson? r "platform"
    timestamp := ← required? (fun t => t.asString?.bind Instant.parse?) r "timestamp"
    project := ← required? ProjectInfo.ofJson? r "project"
    findings := ← required? (list? Finding.ofJson?) r "findings"
    healthScore := ← required? asFloat? r "healthScore"
    summary := ← required? asString? r "summary"
    metrics := ← optional? Metrics.ofJson? r "metrics"
    aiEnhanced := ← defaulted? asBool? false r "aiEnhanced"
    aiModel := ← optional? asString? r "aiModel"
    aiError := ← optional? asString? r "aiError"
    diagnostics := ← defaulted? (list? Diagnostic.ofJson?) [] r "diagnostics" }

def json (r : Report) : String := r.toJson.pretty

def ofText? (text : String) : Option Report := (Json.read? text.toList).bind ofJson?

end Report

end CodeHealth
