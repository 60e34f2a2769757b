import CodeHealth.Finding.Basic
import CodeHealth.Decimal.Notation

/-!
The score of a list of findings. Penalties and what is left of all points are exact numbers; what is
left is rounded to tenths, and only then turned into a floating point number.
-/

namespace CodeHealth

def penalty (fs : List Finding) : Rat := fs.foldl (fun total f => total + f.severity.penalty) 0

def maxScore : Rat := 10

/-- What a list of findings leaves of the score, and never less than nothing. -/
def remainder (fs : List Finding) : Rat :=
  let left := maxScore - penalty fs
  if left < 0 then 0 else left

/-- The nearest whole number; of two the one farther from zero. -/
def roundAway (x : Rat) : Int := if 0 ≤ x then (x + 1 / 2).floor else -(-x + 1 / 2).floor

/-- The score of a list of findings, from zero to ten: what they leave, in whole tenths. -/
def score (fs : List Finding) : Float :=
  Float.ofScientific (roundAway (remainder fs * 10)).toNat true 1

def grade (score : Float) : String :=
  if 9.0 ≤ score then "A"
  else if 8.0 ≤ score then "B"
  else if 7.0 ≤ score then "C"
  else if 6.0 ≤ score then "D"
  else "F"

/-- The category of the rule of a finding, if the catalog knows the rule. -/
def Finding.catalogCategory? (f : Finding) : Option String := (Rule.find? f.ruleId).map (·.category)

def groupByCategory (fs : List Finding) : KeyMap (List Finding) :=
  .groupBy Finding.catalogCategory? fs

def breakdown (fs : List Finding) (filesAnalyzed : Nat) : Metrics where
  bySeverity := .ofFindings fs
  byCategory := .ofList ((groupByCategory fs).entries.map fun (c, items) => (c, items.length))
  filesAnalyzed := filesAnalyzed

/-- The largest of a list of groups; of equally large ones the first. -/
def largestGroup : List (String × List Finding) → Option (String × List Finding)
  | [] => none
  | g :: gs =>
    match largestGroup gs with
    | none => some g
    | some h => if h.2.length ≤ g.2.length then some g else some h

def summarize (fs : List Finding) (filesAnalyzed : Nat) (score : Float) : String :=
  let counts := SeverityCounts.ofFindings fs
  let files := toString filesAnalyzed ++ (if filesAnalyzed = 1 then " file" else " files")
  let health := "Health score: " ++ Decimal.oneDecimal score ++ "/10."
  if counts.total = 0 then "No issues found across " ++ files ++ ". " ++ health
  else
    let issues := toString counts.total ++ (if counts.total = 1 then " issue" else " issues")
    "Found " ++ issues ++ " (" ++ toString counts.error ++ " errors, " ++ toString counts.warning ++
      " warnings, " ++ toString counts.info ++ " info) across " ++ files ++ ". " ++ health ++
      match largestGroup (groupByCategory fs).entries with
      | some (category, items) =>
        " Most findings are in " ++ category ++ " (" ++ toString items.length ++ ")."
      | none => ""

end CodeHealth
