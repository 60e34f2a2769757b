import CodeHealth.Json.Record
import CodeHealth.Rule.Resolution
import CodeHealth.Word

/-!
Settings of rules in JSON. An option is a number, a truth value or a text; whole numbers that do not
fit 64 bits with a sign are read as numbers. The options of a rule are left out when there are none.
-/

namespace CodeHealth.Rule

open Json

def OptionValue.ofJson? : Json → Option OptionValue
  | .integer n =>
    if Word.fitsSigned64 n then some (.integer n) else some (.float (Float.ofInt n))
  | .float x => some (.float x)
  | .bool b => some (.boolean b)
  | .string s => some (.string s)
  | _ => none

def OptionValue.toJson : OptionValue → Json
  | .integer n => .integer n
  | .float x => .float x
  | .boolean b => .bool b
  | .string s => .string s

def Options.ofJson? (j : Json) : Option Options :=
  (j.table? OptionValue.ofJson?).map KeyMap.ofList

def Options.toJson (o : Options) : Json :=
  .object (o.entries.map fun (k, v) => (k, v.toJson))

def severityOfJson? (j : Json) : Option Severity := j.name?.bind Severity.ofName?

/-- The setting of one rule that a value stands for. -/
def RuleOverride.ofJson? (j : Json) : Option RuleOverride := do
  let names := ["enabled", "severity", "options"]
  let r ← j.record? names names
  pure {
    enabled := ← optional? asBool? r "enabled"
    severity := ← optional? severityOfJson? r "severity"
    options := ← defaulted? Options.ofJson? .empty r "options" }

/-- The settings of rules that a value stands for. -/
def overridesOfJson? (j : Json) : Option (KeyMap RuleOverride) :=
  (j.table? RuleOverride.ofJson?).map KeyMap.ofList

def RuleConfig.toJson (c : RuleConfig) : Json :=
  .object <|
    [("enabled", .bool c.enabled), ("severity", .string c.severity.name)] ++
    (if c.options.isEmpty then [] else [("options", c.options.toJson)])

def Config.toJson (c : Config) : Json :=
  .object
    [("preset", .string c.preset.name),
      ("categories", .object (c.categories.map fun (name, admitted) => (name, .bool admitted))),
      ("rules", .object (c.rules.map fun (id, r) => (id, r.toJson)))]

end CodeHealth.Rule
