import CodeHealth.Report.Codec
import CodeHealth.Report.Markdown
import CodeHealth.Report.Table
import CodeHealth.Text.Lowercase

/-!
Formats of reports.
-/

namespace CodeHealth.Report

inductive Format where
  | table
  | json
  | markdown
deriving DecidableEq, Repr, Inhabited

namespace Format

def name : Format → String
  | .table => "table"
  | .json => "json"
  | .markdown => "markdown"

/-- Reads a format. Letter case does not matter, blanks do. -/
def parse (text : String) : Except String Format :=
  match Text.lower text with
  | "table" => .ok .table
  | "text" => .ok .table
  | "terminal" => .ok .table
  | "json" => .ok .json
  | "markdown" => .ok .markdown
  | "md" => .ok .markdown
  | _ => .error ("Unknown format '" ++ text ++ "'. Valid formats: table, json, markdown")

end Format

def render (r : Report) : Format → String
  | .table => r.table
  | .json => r.json
  | .markdown => r.markdown

end CodeHealth.Report
