import CodeHealth.Script.ImportExport

/-!
Parsing of scripts: the parts of the grammar tied together.
-/

namespace CodeHealth.Script

/-- How a goal is parsed, given how the goals inside of it are. -/
def Grammar.rule (g : Grammar) : Goal → Parser Tree
  | .statement => g.statementRule
  | .block => g.blockRule
  | .expression noIn => g.expressionRule noIn
  | .assignment noIn inBranch => g.assignmentRule noIn inBranch
  | .operand level noIn => g.operandRule level noIn
  | .constructed => g.constructedRule
  | .binding => g.bindingRule
  | .type bare => g.typeRule bare
  | .element => g.elementRule

/-- Parses a goal; goals inside of goals may be so deep. -/
def parseGoal (language : Language) : Nat → Goal → Parser Tree
  | 0, _ => wrong
  | depth + 1, goal => Grammar.rule ⟨language, depth, parseGoal language depth⟩ goal

def parseScript (g : Grammar) : Parser Tree := do
  let p ← here
  let body ← collect (do
    if ← atEnd then pure none
    else return some (← g.statement)) g.fuel []
  pure (plain p body)

/-- How deep the goals of a script may be. A script has at least one character for every goal but a
few. -/
def depthOf (text : List Char) : Nat := 8 * text.length + 64

def parse (language : Language) (text : List Char) : Except SyntaxError Tree :=
  let depth := depthOf text
  (parseScript ⟨language, depth, parseGoal language depth⟩ (.ofScript text)).map (·.1)

end CodeHealth.Script
