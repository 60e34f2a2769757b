import CodeHealth.Script.Expression

/-!
Statements that do something, and declarations of variables, functions and classes.
-/

namespace CodeHealth.Script

open Text

namespace Grammar

def statement (g : Grammar) : Parser Tree := g.parse .statement

def blockRule (g : Grammar) : Parser Tree := do
  let p ← here
  expect ['\x7b']
  let body ← collect (do
    if ← accept ['\x7d'] then pure none
    else return some (← g.statement)) g.fuel []
  pure (.node .block p body)

/-- An expression in round brackets. -/
def condition (g : Grammar) : Parser Tree := do
  let p ← here
  expect ['(']
  let comments := (← get).comments
  let t ← g.expression
  expect [')']
  pure (.node .parenthesized p (comments ++ [t]))

/-! ### Variables -/

def declarator (g : Grammar) (noIn : Bool) : Parser Tree := do
  let p ← here
  let target ← g.parse .binding
  if g.hasTypes then discard (accept ['!'])
  g.optionalType
  if ← accept ['='] then
    let t ← g.parse (.assignment noIn false)
    pure (plain p [target, t])
  else pure (plain p [target])

/-- Variables with commas between them. -/
def declaratorsFrom (g : Grammar) (noIn : Bool) : Nat → List Tree → Parser (List Tree)
  | 0, _ => wrong
  | n + 1, found => do
    let t ← g.declarator noIn
    if ← accept [','] then g.declaratorsFrom noIn n (t :: found)
    else pure (t :: found).reverse

/-- Whether the word at a cursor starts a declaration of variables. -/
def startsVariables (c : Cursor) : Bool :=
  let w := c.word
  if w == "var" || w == "const" then true
  else if w == "let" then
    let next := c.skip 3
    isName next.word || next.rest.head? == some '[' || next.rest.head? == some '\x7b'
  else false

def variableStatement (g : Grammar) : Parser Tree := do
  let p ← here
  discard anyWord
  let ts ← g.declaratorsFrom false g.fuel []
  endStatement
  pure (plain p ts)

/-! ### Conditions and loops -/

def ifRule (g : Grammar) (p : Position) : Parser Tree := do
  skip 2
  let test ← g.condition
  let t ← g.statement
  let q ← here
  if ← acceptWord "else" then
    let u ← g.statement
    pure (.node .ifStatement p [test, t, plain q [u]])
  else pure (.node .ifStatement p [test, t])

/-- The words between a variable and what a loop goes through. -/
def acceptOfOrIn : Parser Bool := do
  if ← acceptWord "of" then pure true else acceptWord "in"

/-- The parts of a loop that counts, behind the first. -/
def countingRest (g : Grammar) (p : Position) (first : List Tree) : Parser Tree := do
  expect [';']
  let test ← if ← isNext [';'] then pure [] else do pure [← g.expression]
  expect [';']
  let step ← if ← isNext [')'] then pure [] else do pure [← g.expression]
  expect [')']
  let body ← g.statement
  pure (.node .forStatement p (first ++ test ++ step ++ [body]))

/-- What a loop goes through, and its body. -/
def throughRest (g : Grammar) (p : Position) (target : Tree) : Parser Tree := do
  let t ← g.expression
  expect [')']
  let body ← g.statement
  pure (.node .forInStatement p [target, t, body])

/-- A loop that goes through something, or counts. -/
def forRule (g : Grammar) (p : Position) : Parser Tree := do
  skip 3
  discard (acceptWord "await")
  expect ['(']
  let c ← get
  if c.rest.head? == some ';' then g.countingRest p []
  else if startsVariables c then
    discard anyWord
    let ts ← g.declaratorsFrom true g.fuel []
    let head := plain c.place ts
    if ← acceptOfOrIn then g.throughRest p head else g.countingRest p [head]
  else
    let t ← g.parse (.expression true)
    if ← acceptOfOrIn then
      if t.isAssignable true then g.throughRest p t else wrong
    else g.countingRest p [t]

/-- A loop that tests before each turn. -/
def whileRule (g : Grammar) (p : Position) : Parser Tree := do
  skip 5
  let test ← g.condition
  let body ← g.statement
  pure (.node .whileStatement p [test, body])

/-- A loop that tests behind each turn. -/
def doRule (g : Grammar) (p : Position) : Parser Tree := do
  skip 2
  let body ← g.statement
  expectWord "while"
  let test ← g.condition
  discard (accept [';'])
  pure (.node .doStatement p [body, test])

def switchCase (g : Grammar) : Parser Tree := do
  let p ← here
  let test ←
    if ← acceptWord "default" then pure []
    else do
      expectWord "case"
      pure [← g.expression]
  expect [':']
  let body ← collect (do
    let c ← get
    if c.rest.head? == some '\x7d' || c.word == "case" || c.word == "default" then pure none
    else return some (← g.statement)) g.fuel []
  pure (plain p (test ++ body))

/-- A choice between cases. -/
def switchRule (g : Grammar) (p : Position) : Parser Tree := do
  skip 6
  let subject ← g.condition
  let q ← here
  expect ['\x7b']
  let cases ← collect (do
    if ← accept ['\x7d'] then pure none
    else return some (← g.switchCase)) g.fuel []
  pure (.node .switchStatement p [subject, plain q cases])

/-! ### Other statements -/

/-- What is done when something was thrown. -/
def handler (g : Grammar) : Parser (List Tree) := do
  let p ← here
  if ← acceptWord "catch" then
    let target ←
      if ← accept ['('] then do
        let t ← g.parse .binding
        g.optionalType
        expect [')']
        pure [t]
      else pure []
    let body ← g.parse .block
    pure [plain p (target ++ [body])]
  else pure []

def tryRule (g : Grammar) (p : Position) : Parser Tree := do
  skip 3
  let body ← g.parse .block
  let caught ← g.handler
  let q ← here
  if ← acceptWord "finally" then
    let last ← g.parse .block
    pure (plain p (body :: caught ++ [plain q [last]]))
  else if caught.isEmpty then wrong
  else pure (plain p (body :: caught))

/-- Whether a statement ends at a cursor, so that nothing belongs to the word before. -/
def endsHere (c : Cursor) : Bool :=
  c.newline || c.isEnd || c.rest.head? == some ';' || c.rest.head? == some '\x7d'

def returnRule (g : Grammar) (p : Position) : Parser Tree := do
  skip 6
  let c ← get
  if endsHere c then
    endStatement
    pure (.node .returnStatement p c.comments)
  else
    let t ← g.expression
    endStatement
    pure (.node .returnStatement p (c.comments ++ [t]))

def throwRule (g : Grammar) (p : Position) : Parser Tree := do
  skip 5
  let t ← g.expression
  endStatement
  pure (plain p [t])

/-- A statement that leaves a loop or goes on with it. -/
def jumpRule (p : Position) (length : Nat) : Parser Tree := do
  skip length
  let c ← get
  unless endsHere c do discard name
  endStatement
  pure (plain p [])

/-- A statement with an object whose names it sees. -/
def withRule (g : Grammar) (p : Position) : Parser Tree := do
  skip 4
  let t ← g.condition
  let body ← g.statement
  pure (plain p [t, body])

def expressionStatement (g : Grammar) : Parser Tree := do
  let p ← here
  let t ← g.expression
  endStatement
  pure (plain p [t])

/-- A statement that starts with a keyword, if the word that comes next is one. -/
def keywordStatement (g : Grammar) (p : Position) (w : String) : Parser (Option Tree) := do
  match w with
  | "if" => return some (← g.ifRule p)
  | "for" => return some (← g.forRule p)
  | "while" => return some (← g.whileRule p)
  | "do" => return some (← g.doRule p)
  | "switch" => return some (← g.switchRule p)
  | "try" => return some (← g.tryRule p)
  | "return" => return some (← g.returnRule p)
  | "throw" => return some (← g.throwRule p)
  | "break" => return some (← jumpRule p 5)
  | "continue" => return some (← jumpRule p 8)
  | "debugger" =>
    skip 8
    endStatement
    return some (plain p [])
  | "with" => return some (← g.withRule p)
  | "function" => return some (← g.functionRule p true)
  | "class" => return some (← g.classRule p [])
  | _ => pure none

def wordStatement (g : Grammar) (c : Cursor) (w : String) : Parser Tree := do
  let next := c.skip w.length
  if w == "async" && next.word == "function" && !next.newline then
    skip 5
    g.functionRule c.place true
  else if startsVariables c then g.variableStatement
  else if isName w && next.rest.head? == some ':' then
    skip w.length
    skip 1
    let t ← g.statement
    pure (plain c.place [t])
  else g.expressionStatement

end Grammar

end CodeHealth.Script
