import CodeHealth.CommandLine.Command
import CodeHealth.CommandLine.Host
import CodeHealth.Project.Settings
import CodeHealth.Rule.Codec

/-!
The list of the rules with the settings that a project gives them.
-/

namespace CodeHealth.CommandLine

def ruleJson (c : Rule.Config) (r : Rule.Entry) : Json :=
  .object
    [("category", .string r.category), ("defaultSeverity", .string r.severity.name),
      ("description", .string r.description), ("enabled", .bool (c.isEnabled r.id)),
      ("id", .string r.id), ("name", .string r.name),
      ("options", (c.optionsFor r.id).toJson),
      ("severity", .ofOption (fun s => .string (Severity.name s)) (c.severityFor r.id))]

def rulesJson (c : Rule.Config) : Json :=
  .object
    [("preset", .string c.preset.name), ("rules", .array (Rule.catalog.map (ruleJson c)))]

def severityStyle : Severity → Ansi.Style
  | .error => .red
  | .warning => .yellow
  | .info => .dim

def ruleLine (w : World) (c : Rule.Config) (r : Rule.Entry) : String :=
  let mark := if c.isEnabled r.id then w.paint .green "✓  " else w.paint .dim "·  "
  let severity := (c.severityFor r.id).getD r.severity
  "  " ++ mark ++ " " ++ Report.padRight 26 r.id ++ " " ++ Report.padRight 15 r.category ++ " " ++
    w.paint (severityStyle severity) (Report.padRight 8 severity.name) ++ " " ++
    r.description ++ "\n"

/-- The lines of rules, with an empty line where the category changes. -/
def ruleLines (w : World) (c : Rule.Config) : List Rule.Entry → String
  | r :: s :: rest =>
    ruleLine w c r ++ (if r.category = s.category then "" else "\n") ++ ruleLines w c (s :: rest)
  | [r] => ruleLine w c r
  | [] => ""

def rulesTable (w : World) (c : Rule.Config) : String :=
  "\n" ++ w.paint .bold "pulsecheck" ++ " preset: " ++ w.paint .cyan c.preset.name ++ "\n\n" ++
    "  ON  RULE                       CATEGORY        SEVERITY DESCRIPTION\n" ++
    ruleLines w c Rule.catalog ++
    "\n  " ++ toString c.enabledRuleIds.length ++ " of " ++ toString Rule.catalog.length ++
    " rules enabled\n"

def rulesCommand (w : World) (args : RulesArgs) : Outcome :=
  let s := ProjectSettings.load w.files (args.path.getD ⟨"."⟩)
  let (c, warnings) := Rule.resolve ((args.preset.or s.preset).getD "recommended") s.overrides
  let text := if args.json then (rulesJson c).pretty ++ "\n" else rulesTable w c
  let notes := warnings.map fun n => w.paint .yellow "warning:" ++ " " ++ n.message ++ "\n"
  ⟨text, "".intercalate notes, 0⟩

end CodeHealth.CommandLine
