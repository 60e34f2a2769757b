import CodeHealth.Script.Binding
import CodeHealth.Script.Operator

/-!
Functions, and the members of objects and classes.
-/

namespace CodeHealth.Script

open Text

namespace Grammar

/-- A function that is written with the word `function`, which comes next. A function that has a
name counts as a declaration where `declared` is set. Without a body it only says what it takes and
gives. -/
def functionRule (g : Grammar) (p : Position) (declared : Bool) : Parser Tree := do
  expectWord "function"
  let generator ← accept ['*']
  let w ← nextWord
  let named := isName w
  if named then skip w.length
  let ps ← g.signature
  if g.hasTypes && !(← isNext ['\x7b']) then
    endStatement
    pure (plain p ps)
  else
    let body ← g.parse .block
    let kind :=
      if declared && named then
        if generator then Kind.generatorDeclaration else .functionDeclaration
      else if generator then .generatorExpression else .functionExpression
    pure (.node kind p (ps ++ [body]))

/-- What a method takes, and its body. A method without a body is no function. -/
def methodRest (g : Grammar) (p : Position) (key : List Tree) : Parser Tree := do
  let ps ← g.signature
  if ← isNext ['\x7b'] then
    let body ← g.parse .block
    pure (.node .method p (key ++ ps ++ [body]))
  else if g.hasTypes then
    endStatement
    pure (plain p (key ++ ps))
  else wrong

/-! ### Objects -/

/-- The words before the name of a method of an object. -/
def methodMarks : List String := ["get", "set", "async"]

def startsMethod (g : Grammar) : Parser Bool := do
  if ← isNext ['('] then pure true
  else if g.hasTypes then isNext ['<']
  else pure false

/-- One member of an object. Patterns may be written as objects, so a member may have a value in
case there is none. -/
def objectMember (g : Grammar) : Parser Tree := do
  let p ← here
  if ← accept ['.', '.', '.'] then
    let t ← g.value
    pure (.node .spread p [t])
  else
    discard (g.marksBefore methodMarks endsMemberName)
    discard (accept ['*'])
    let c ← get
    let w := c.word
    let key ← g.memberKey
    if ← g.startsMethod then g.methodRest p key
    else if ← accept [':'] then
      let t ← g.value
      pure (.node .pair p (key ++ [t]))
    else if isName w then
      let default ← g.initializer
      pure (.node .shorthand p (.node (.identifier w) c.place [] :: default))
    else wrong

/-! ### Classes -/

/-- The words before the name of a member of a class. -/
def classMarks : List String :=
  ["public", "private", "protected", "static", "abstract", "override", "readonly", "declare",
    "accessor", "async", "get", "set"]

/-- Whether the word `static` that comes next opens a block. -/
def startsStaticBlock : Parser Bool := do
  let c ← get
  pure (c.word == "static" && (c.skip 6).rest.head? == some '\x7b')

/-- What stands behind the name of a field: marks, a type, a value, and its end. -/
def fieldRest (g : Grammar) (p : Position) (parts : List Tree) : Parser Tree := do
  if g.hasTypes then
    unless ← accept ['?'] do discard (accept ['!'])
  g.optionalType
  let value ← g.initializer
  endStatement
  pure (plain p (parts ++ value))

/-- Whether the square bracket that comes next opens the index of all members. -/
def startsIndex (g : Grammar) : Parser Bool := do
  let inside ← lookBehind 1
  let w := inside.word
  pure (g.hasTypes && !w.isEmpty && (inside.skip w.length).rest.head? == some ':')

def classMember (g : Grammar) : Parser Tree := do
  let p ← here
  let marks ← g.decorators
  if ← startsStaticBlock then
    skip 6
    let body ← g.parse .block
    pure (plain p [body])
  else
    discard (g.marksBefore classMarks endsMemberName)
    discard (accept ['*'])
    if (← isNext ['[']) && (← g.startsIndex) then
      g.bracketMember
      endStatement
      pure (plain p marks)
    else
      let key ← g.memberKey
      discard (if g.hasTypes && (← get).rest.head? == some '?' &&
        ((← lookBehind 1).rest.head? == some '(') then accept ['?'] else pure false)
      if ← g.startsMethod then g.methodRest p (marks ++ key)
      else g.fieldRest p (marks ++ key)

def classBody (g : Grammar) : Parser Tree := do
  let p ← here
  expect ['\x7b']
  let members ← collect (do
    acceptAll [';'] g.fuel
    if ← accept ['\x7d'] then pure none
    else return some (← g.classMember)) g.fuel []
  pure (plain p members)

/-- What a class extends and implements. -/
def heritage (g : Grammar) : Parser (List Tree) := do
  let base ←
    if ← acceptWord "extends" then do
      let t ← g.parse (.operand unaryLevel false)
      if g.hasTypes then g.optionalTypeArguments
      pure [t]
    else pure []
  if g.hasTypes then
    if ← acceptWord "implements" then
      g.typesBetween [','] (discard g.type)
  pure base

/-- A class behind its decorators; the word `class` comes next. -/
def classRule (g : Grammar) (p : Position) (marks : List Tree) : Parser Tree := do
  expectWord "class"
  let w ← nextWord
  if isName w && w != "implements" then skip w.length
  g.optionalTypeParameters
  let base ← g.heritage
  let body ← g.classBody
  pure (plain p (marks ++ base ++ [body]))

end Grammar

end CodeHealth.Script
