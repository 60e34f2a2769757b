import CodeHealth.Script.TypeSyntax

/-!
Names that are bound: variables, patterns, and the parameters of functions.
-/

namespace CodeHealth.Script

open Text

namespace Grammar

/-- The key of a member in square brackets. -/
def computedKey (g : Grammar) : Parser (List Tree) := do
  expect ['[']
  let key ← g.expression
  expect [']']
  pure [key]

/-- The key of a member: a word, a string, a number, or an expression in square brackets. Gives the
nodes that the key has. -/
def memberKey (g : Grammar) : Parser (List Tree) := do
  if ← isNext ['['] then g.computedKey
  else
    plainMemberName
    pure []

/-- A name or pattern that may have a value in case there is none. -/
def bindingWithDefault (g : Grammar) : Parser Tree := do
  let p ← here
  let target ← g.parse .binding
  match ← g.initializer with
  | [] => pure target
  | default => pure (plain p (target :: default))

/-- What stands behind the three dots of a pattern. -/
def restBinding (g : Grammar) : Parser Tree := do
  let p ← here
  expect ['.', '.', '.']
  let target ← g.parse .binding
  pure (plain p [target])

def memberBinding (g : Grammar) : Parser Tree := do
  let c ← get
  if ['.', '.', '.'].isPrefixOf c.rest then g.restBinding
  else
    let w := c.word
    let key ← g.memberKey
    if ← accept [':'] then
      let target ← g.bindingWithDefault
      pure (plain c.place (key ++ [target]))
    else if isName w then
      let default ← g.initializer
      pure (plain c.place (.node (.identifier w) c.place [] :: default))
    else wrong

def itemBinding (g : Grammar) : Parser Tree := do
  if ← isNext ['.', '.', '.'] then g.restBinding else g.bindingWithDefault

/-- A name that is bound, or a pattern of such names. -/
def bindingRule (g : Grammar) : Parser Tree := do
  let p ← here
  if ← accept ['\x7b'] then
    return .node .object p (← g.commaList ['\x7d'] g.memberBinding)
  else if ← accept ['['] then
    return .node .array p (← g.sparseList [']'] g.itemBinding)
  else
    let w ← name
    pure (.node (.identifier w) p [])

/-! ### Parameters -/

/-- The words before a parameter that makes a property, too. -/
def parameterMarks : List String := ["public", "private", "protected", "readonly", "override"]

/-- Passes words that stand before something with a name, as long as they are no names
themselves. -/
def marksBefore (g : Grammar) (marks : List String) (endsName : Cursor → Bool) :
    Parser (List String) :=
  collect (do
    let w ← nextWord
    if marks.contains w then
      let next ← lookBehind w.length
      if endsName next then pure none
      else
        skip w.length
        pure (some w)
    else pure none) g.fuel []

/-- Whether what stands behind a word shows that the word is a parameter. -/
def endsBinding (c : Cursor) : Bool :=
  match c.rest with
  | [] => true
  | d :: _ => ":,?=)".toList.contains d

def decoratorCall (g : Grammar) : Nat → Position → Tree → Parser Tree
  | 0, _, _ => wrong
  | n + 1, p, t => do
    let c ← get
    match c.rest with
    | '.' :: _ =>
      skip 1
      let q ← here
      let w ← anyWord
      g.decoratorCall n p (.node .member p [t, .node (.property w) q []])
    | '(' :: _ =>
      skip 1
      let args ← g.sparseList [')'] g.value
      g.decoratorCall n p (.node .call p [t, .node .arguments c.place args])
    | _ => pure t

def decorator (g : Grammar) : Parser Tree := do
  let p ← here
  expect ['@']
  let q ← here
  if ← accept ['('] then
    let t ← g.expression
    expect [')']
    pure (plain p [.node .parenthesized q [t]])
  else
    let w ← name
    let t ← g.decoratorCall g.fuel q (.node (.identifier w) q [])
    pure (plain p [t])

/-- Decorators, as long as there are any. -/
def decorators (g : Grammar) : Parser (List Tree) :=
  collect (do
    if ← isNext ['@'] then return some (← g.decorator)
    else pure none) g.fuel []

def parameter (g : Grammar) : Parser Tree := do
  let p ← here
  let marks ← g.decorators
  if g.hasTypes then discard (g.marksBefore parameterMarks endsBinding)
  if ← isNext ['.', '.', '.'] then
    let target ← g.restBinding
    g.optionalType
    pure (plain p (marks ++ [target]))
  else
    let q ← here
    let target ←
      if g.hasTypes && (← acceptWord "this") then pure (plain q []) else g.parse .binding
    if g.hasTypes then discard (accept ['?'])
    g.optionalType
    let default ← g.initializer
    pure (plain p (marks ++ target :: default))

/-- The parameters of a function in round brackets. -/
def parameters (g : Grammar) : Parser (List Tree) := do
  expect ['(']
  g.commaList [')'] g.parameter

/-- What a function takes and gives. -/
def signature (g : Grammar) : Parser (List Tree) := do
  g.optionalTypeParameters
  let ps ← g.parameters
  if g.hasTypes then
    if ← accept [':'] then g.returnType
  pure ps

end Grammar

end CodeHealth.Script
