import CodeHealth.Report.Basic

/-!
The report in Markdown, for comments and summaries.
-/

namespace CodeHealth.Report

def version : String := "0.3.0"

/-- The number of findings of one severity that are listed. -/
def maxPerSeverity : Nat := 20

/-- Title, grade and time. -/
def markdownHeader (r : Report) : String :=
  "# pulsecheck report: " ++ r.project.name ++ "\n\n" ++
  "**Grade: " ++ grade r.healthScore ++ "** | **Health score: " ++
    Decimal.oneDecimal r.healthScore ++ "/10** | Framework: " ++ r.project.framework ++
    " | Platform: " ++ r.platform.name ++ "\n\n" ++
  "Generated: " ++ r.timestamp.display ++ "\n"

/-- Where summary and suggestions come from, if a model was asked. -/
def markdownProvenance (r : Report) : String :=
  if r.aiEnhanced then
    match r.aiModel with
    | some model => "\n_Summary and suggestions written by " ++ model ++ "._\n"
    | none => ""
  else
    match r.aiError with
    | some e => "\n> AI enhancement unavailable: " ++ e ++ "\n"
    | none => ""

/-- The summary and the number of findings of each severity. -/
def markdownSummary (r : Report) : String :=
  let counts := (r.metrics.map (·.bySeverity)).getD (.ofFindings r.findings)
  "## Summary\n\n" ++ r.summary ++ "\n\n" ++
  "| Severity | Count |\n|----------|-------|\n" ++
  "| Error | " ++ toString counts.error ++ " |\n" ++
  "| Warning | " ++ toString counts.warning ++ " |\n" ++
  "| Info | " ++ toString counts.info ++ " |\n" ++
  "| **Total** | **" ++ toString counts.total ++ "** |\n" ++
  markdownProvenance r

/-- The number of findings of each category, unless there are none. -/
def markdownCategories (r : Report) : String :=
  match r.metrics with
  | none => ""
  | some m =>
    if m.byCategory.isEmpty then ""
    else "## Categories\n\n| Category | Findings |\n|----------|----------|\n" ++
      "".intercalate (m.byCategory.entries.map fun (c, n) =>
        "| " ++ c ++ " | " ++ toString n ++ " |\n") ++
      "\n"

/-- A character of a cell: a pipe is escaped, a line feed becomes a space. -/
def escapeCellChar (c : Char) : List Char :=
  if c = '|' then ['\\', '|'] else if c = '\n' then [' '] else [c]

def escapeCell (s : String) : String := String.ofList (s.toList.flatMap escapeCellChar)

def markdownRow (f : Finding) : String :=
  "| `" ++ f.file.text ++ ":" ++ toString f.line ++ ":" ++ toString f.column ++ "` | `" ++
    f.ruleId ++ "` | " ++ escapeCell f.message ++ " | " ++
    ((f.suggestion.map escapeCell).getD "") ++ " |\n"

def severityTitle : Severity → String
  | .error => "Errors"
  | .warning => "Warnings"
  | .info => "Info"

/-- The findings of one severity, unless there are none. -/
def markdownSeverity (fs : List Finding) (s : Severity) : String :=
  let items := fs.filter fun f => f.severity = s
  if items.isEmpty then ""
  else
    "### " ++ severityTitle s ++ " (" ++ toString items.length ++ ")\n\n" ++
    "| Location | Rule | Message | Suggestion |\n" ++
    "|----------|------|---------|------------|\n" ++
    "".intercalate ((items.take maxPerSeverity).map markdownRow) ++
    (if maxPerSeverity < items.length then
      "\n_...and " ++ toString (items.length - maxPerSeverity) ++ " more_\n"
    else "") ++
    "\n"

def markdownFindings (fs : List Finding) : String :=
  if fs.isEmpty then "## Findings\n\nNo issues found.\n\n"
  else "## Findings\n\n" ++
    "".intercalate ([Severity.error, .warning, .info].map (markdownSeverity fs))

/-- The diagnostics, unless there are none, and the version. -/
def markdownFooter (r : Report) : String :=
  "---\n\n" ++
  (if r.diagnostics.isEmpty then ""
    else "<details><summary>" ++ toString r.diagnostics.length ++
      " diagnostic(s)</summary>\n\n" ++
      "".intercalate (r.diagnostics.map fun d =>
        match d.file with
        | some file => "- `" ++ file.text ++ "`: " ++ d.message ++ "\n"
        | none => "- " ++ d.message ++ "\n") ++
      "\n</details>\n\n") ++
  "_Generated by pulsecheck " ++ version ++ "_\n"

def markdown (r : Report) : String :=
  markdownHeader r ++ "\n" ++ markdownSummary r ++ "\n" ++ markdownCategories r ++
    markdownFindings r.findings ++ markdownFooter r

end CodeHealth.Report
