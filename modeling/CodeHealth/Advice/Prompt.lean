import CodeHealth.Report.Basic

/-!
Prompts. A report is shown to a model by its figures and by the findings of each rule; both the
rules and the findings of a rule are cut to a small number, and what is cut is counted.
-/

namespace CodeHealth.Advice

/-- The number of findings of a rule that are shown. -/
def maxOccurrences : Nat := 3

def maxRules : Nat := 15

/-- The number of characters of a message that are shown. -/
def maxMessage : Nat := 200

def maxDependencies : Nat := 20

/-- What a model is told before every prompt. -/
def systemPrompt : String :=
  "You are a senior frontend engineer reviewing static analysis " ++
  "results for a React/TypeScript project. Be concrete and brief. Answer with a single JSON " ++
  "object and nothing else."

/-- A text cut to `max` characters; a cut shows as three dots, which count. -/
def truncate (max : Nat) (text : List Char) : List Char :=
  if text.length ≤ max then text else text.take (max - 3) ++ ['.', '.', '.']

/-- The findings of each rule that has any, in the order of the rules' ids. -/
def groupByRule (fs : List Finding) : KeyMap (List Finding) :=
  .groupBy (fun f => some f.ruleId) fs

/-- Whether a group is shown before another: the larger one, of equally large ones the one with the
lesser id. -/
def groupLe (a b : String × List Finding) : Bool :=
  b.2.length < a.2.length || (a.2.length == b.2.length && a.1 ≤ b.1)

/-- The findings of each rule, the largest group first. -/
def rankedGroups (fs : List Finding) : List (String × List Finding) :=
  (groupByRule fs).entries.mergeSort groupLe

def occurrenceLine (f : Finding) : String :=
  "- " ++ f.file.text ++ ":" ++ toString f.line ++ ":" ++ toString f.column ++ " " ++
    String.ofList (truncate maxMessage f.message.toList)

/-- The heading of a rule: how many findings it has, and how heavy the first of them is. -/
def groupHeading : String × List Finding → String
  | (id, items) =>
    let count := toString items.length ++ " occurrence" ++ (if items.length = 1 then "" else "s")
    let severity := (items.head?.map (·.severity.name)).getD ""
    "### " ++ id ++ " (" ++ count ++ ", " ++ severity ++ ")"

/-- How many findings of a rule were cut, if any. -/
def groupRemainder (items : List Finding) : List String :=
  if maxOccurrences < items.length then
    ["- (and " ++ toString (items.length - maxOccurrences) ++ " more)"]
  else []

/-- The lines of a rule: heading, findings, and how many were cut. -/
def groupLines (g : String × List Finding) : List String :=
  groupHeading g :: (g.2.take maxOccurrences).map occurrenceLine ++ groupRemainder g.2

def projectLines (r : Report) : List String :=
  ["## Project", "- Name: " ++ r.project.name, "- Framework: " ++ r.project.framework,
    "- Version: " ++ r.project.version, "- Platform: " ++ r.platform.name] ++
  (if r.project.dependencies.isEmpty then []
    else ["- Dependencies: " ++ ", ".intercalate (r.project.dependencies.take maxDependencies)])

def scoreLines (r : Report) : List String :=
  ["", "## Health score: " ++ Decimal.oneDecimal r.healthScore ++ "/10",
    "Total findings: " ++ toString r.findings.length, "", "## Findings by rule"]

/-- How many of `n` rules were cut, if any. -/
def ruleRemainder (n : Nat) : List String :=
  if maxRules < n then ["(" ++ toString (n - maxRules) ++ " more rules not shown)"] else []

/-- The lines about the findings, rule by rule. -/
def findingLines (fs : List Finding) : List String :=
  let groups := rankedGroups fs
  (if groups.isEmpty then ["No findings."] else []) ++
  (groups.take maxRules).flatMap groupLines ++ ruleRemainder groups.length

def reportQuestion : String :=
  "Respond with JSON of the form \x7b\"summary\": string, \"suggestions\": string[]\x7d. " ++
  "The summary is one short paragraph on the overall health of the project. Give one suggestion " ++
  "per finding in the order the findings appear, most important first."

def textOfLines (ls : List String) : String := "".intercalate (ls.map (· ++ "\n"))

def reportPrompt (r : Report) : String :=
  textOfLines <|
    projectLines r ++ scoreLines r ++ findingLines r.findings ++ ["", reportQuestion]

def snippetPrompt (code language : String) : String :=
  "Review this " ++ language ++ " snippet from a React/TypeScript project.\n\n" ++
  "```" ++ language ++ "\n" ++ code ++ "\n```\n\n" ++
  "Respond with JSON of the form \x7b\"insights\": string[], \"suggestions\": string[]\x7d. " ++
  "Insights describe what the code does and any risks; suggestions are concrete changes."

end CodeHealth.Advice
