import CodeHealth.Report.Basic

/-!
The report as a table for a terminal, with colours.
-/

namespace CodeHealth.Report

/-! ### Colours -/

def reset : String := "\x1b[0m"

def bold : String := "\x1b[1m"

def dim : String := "\x1b[2m"

def red : String := "\x1b[31m"

def yellow : String := "\x1b[33m"

def gray : String := "\x1b[90m"

def gradeColor (letter : String) : String :=
  if letter = "A" then "\x1b[32m"
  else if letter = "B" then "\x1b[92m"
  else if letter = "C" then yellow
  else if letter = "D" then "\x1b[91m"
  else if letter = "F" then red
  else reset

def severityColor : Severity → String
  | .error => red
  | .warning => yellow
  | .info => gray

def severityTag : Severity → String
  | .error => "[E]"
  | .warning => "[W]"
  | .info => "[I]"

/-! ### Cells -/

/-- The number of findings that a table lists. -/
def maxRows : Nat := 25

def locationWidth : Nat := 28

def fullLocation (f : Finding) : String :=
  f.file.text ++ ":" ++ toString f.line ++ ":" ++ toString f.column

def lastChars (n : Nat) (s : String) : String :=
  String.ofList (s.toList.drop (s.length - n))

/-- A place, cut on the left so that it fits its cell. -/
def location (f : Finding) : String :=
  let full := fullLocation f
  if locationWidth < full.length then "..." ++ lastChars (locationWidth - 3) full else full

/-- A text with blanks behind it up to a width. -/
def padRight (width : Nat) (s : String) : String :=
  s ++ String.ofList (List.replicate (width - s.length) ' ')

def joined (separator : String) (parts : List String) : String := separator.intercalate parts

/-! ### Sections -/

/-- The name of the project and its health. -/
def tableHeader (r : Report) : String :=
  let letter := grade r.healthScore
  "\n" ++ bold ++ "pulsecheck" ++ reset ++ "  " ++ r.project.name ++ " " ++ dim ++ "(" ++
    r.project.framework ++ ", " ++ r.platform.name ++ ")" ++ reset ++ "\n" ++
  dim ++ String.ofList (List.replicate 38 '─') ++ reset ++ "\n" ++
  "Health: " ++ bold ++ Decimal.oneDecimal r.healthScore ++ "/10" ++ reset ++ "  Grade: " ++
    gradeColor letter ++ bold ++ letter ++ reset ++
  (match r.metrics with
    | some m => "  Files: " ++ toString m.filesAnalyzed
    | none => "") ++
  "\n\n"

/-- The number of findings of one severity, unless there are none. -/
def countPart (color : String) (n : Nat) (name : String) : List String :=
  if 0 < n then [color ++ toString n ++ " " ++ name ++ reset] else []

def tableMetrics (m : Metrics) : String :=
  let s := m.bySeverity
  let parts := countPart red s.error "error" ++ countPart yellow s.warning "warning" ++
    countPart gray s.info "info"
  bold ++ "FINDINGS" ++ reset ++ " (" ++ toString s.total ++ " total)\n" ++
  (if parts.isEmpty then "" else "  " ++ joined " | " parts ++ "\n") ++
  (if m.byCategory.isEmpty then ""
    else "  " ++ dim ++
      joined " · " (m.byCategory.entries.map fun (c, n) => c ++ " " ++ toString n) ++
      reset ++ "\n") ++
  "\n"

def tableRow (f : Finding) : String :=
  "  " ++ severityColor f.severity ++ severityTag f.severity ++ reset ++ "  " ++
    padRight locationWidth (location f) ++ "  " ++ padRight 24 f.ruleId ++ "  " ++ f.message ++
    "\n" ++
  match f.suggestion with
  | some s => "  " ++ dim ++ "     ↳ " ++ s ++ reset ++ "\n"
  | none => ""

def tableFindings (fs : List Finding) : String :=
  if fs.isEmpty then ""
  else
    let remaining := fs.length - maxRows
    dim ++ "  SEV  LOCATION                      RULE                      MESSAGE" ++ reset ++
      "\n" ++
    dim ++ "  " ++ String.ofList (List.replicate 65 '─') ++ reset ++ "\n" ++
    joined "" ((fs.take maxRows).map tableRow) ++
    (if 0 < remaining then
      "\n  " ++ dim ++ "...and " ++ toString remaining ++
        " more (use --format json for the full list)" ++ reset ++ "\n"
    else "") ++
    "\n"

/-- Where summary and suggestions come from, if a model was asked. -/
def tableProvenance (r : Report) : String :=
  if r.aiEnhanced then
    match r.aiModel with
    | some model => "  " ++ dim ++ "AI summary by " ++ model ++ reset ++ "\n"
    | none => ""
  else
    match r.aiError with
    | some e => "  " ++ yellow ++ "AI enhancement unavailable: " ++ e ++ reset ++ "\n"
    | none => ""

/-- The number of diagnostics, unless there are none. -/
def tableDiagnostics (ds : List Diagnostic) : String :=
  if ds.isEmpty then ""
  else "\n" ++ dim ++ toString ds.length ++
    " diagnostic(s) recorded; rerun with --log-level debug for details" ++ reset ++ "\n"

def table (r : Report) : String :=
  tableHeader r ++ ((r.metrics.map tableMetrics).getD "") ++ tableFindings r.findings ++
    bold ++ "SUMMARY" ++ reset ++ "\n  " ++ r.summary ++ "\n" ++
    tableProvenance r ++ tableDiagnostics r.diagnostics

end CodeHealth.Report
