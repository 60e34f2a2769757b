import CodeHealth.Script.Markup
import CodeHealth.Script.Member

/-!
Expressions.
-/

namespace CodeHealth.Script

open Text

/-- An item in round brackets, before it is known what the brackets are. -/
structure RoundItem where
  tree : Tree
  isSpread : Bool
  /-- Only parameters have types and may be marked as missing. -/
  isTyped : Bool
  isParameter : Bool

/-- Whether an item may be a value in round brackets. -/
def RoundItem.isValue (i : RoundItem) : Bool := !i.isSpread && !i.isTyped

namespace Grammar

/-! ### Lists -/

def spreadOrValue (g : Grammar) : Parser Tree := do
  let p ← here
  if ← accept ['.', '.', '.'] then
    let t ← g.value
    pure (.node .spread p [t])
  else g.value

/-- The arguments of a call in round brackets, with the comments before them. -/
def arguments (g : Grammar) : Parser Tree := do
  let p ← here
  expect ['(']
  let comments := (← get).comments
  let items ← g.sparseList [')'] g.spreadOrValue
  pure (.node .arguments p (comments ++ items))

def substitutions (g : Grammar) (p : Position) : Nat → List Tree → Parser (List Tree)
  | 0, _ => wrong
  | n + 1, found => do
    match chunkLength? (← get).rest with
    | none => unclosed p
    | some (length, .quote) =>
      skip (length + 1)
      pure found.reverse
    | some (length, .substitution) =>
      skip (length + 2)
      let t ← g.expression
      unless ← isNext ['\x7d'] do wrong
      skipBare 1
      g.substitutions p n (t :: found)

def template (g : Grammar) : Parser Tree := do
  let p ← here
  skipBare 1
  let parts ← g.substitutions p g.fuel []
  pure (plain p parts)

/-! ### Functions -/

def arrowBody (g : Grammar) (noIn : Bool) : Parser Tree := do
  if ← isNext ['\x7b'] then g.parse .block else g.parse (.assignment noIn false)

/-- What stands behind the parameters of an arrow function. -/
def arrowRest (g : Grammar) (noIn : Bool) (p : Position) (ps : List Tree) : Parser Tree := do
  expect ['=', '>']
  let body ← g.arrowBody noIn
  pure (.node .arrow p (ps ++ [body]))

/-- Whether an arrow comes next, on the same line. -/
def startsArrow : Parser Bool := do
  let c ← get
  pure (['=', '>'].isPrefixOf c.rest && !c.newline)

/-- Whether what was read as a value may be a parameter of an arrow function. Where types may be
written, functions may say what `this` is. -/
def isParameter (g : Grammar) (defaults : Bool) (t : Tree) : Bool :=
  t.isPattern defaults || (g.hasTypes && t.kind == .this)

/-- An item in round brackets. Patterns are written like values, so it is read as a value. -/
def roundItem (g : Grammar) : Parser RoundItem := do
  let p ← here
  let isSpread ← accept ['.', '.', '.']
  let value ← g.value
  let t := if isSpread then .node .spread p [value] else value
  let untyped : RoundItem := ⟨t, isSpread, false, g.isParameter true t⟩
  if !g.hasTypes then pure untyped
  else
    let missing ← accept ['?']
    let typed ← accept [':']
    if typed then discard g.type
    if missing || typed then
      let default ← g.initializer
      pure ⟨plain p (t :: default), isSpread, true, g.isParameter false t⟩
    else pure untyped

/-- The items in round brackets, and whether there is nothing behind the last comma. -/
def roundItemsFrom (g : Grammar) : Nat → List RoundItem → Parser (List RoundItem × Bool)
  | 0, _ => wrong
  | n + 1, found => do
    if ← accept [')'] then pure (found.reverse, true)
    else
      let item ← g.roundItem
      if ← accept [','] then g.roundItemsFrom n (item :: found)
      else
        expect [')']
        pure ((item :: found).reverse, false)

/-- Passes the type of what an arrow function gives, if an arrow stands behind it. In a branch of a
choice the colon of the choice has to be left over. -/
def arrowReturnType (g : Grammar) (noIn inBranch : Bool) : Parser Unit := do
  if g.hasTypes then
    if ← isNext [':'] then
      let typed := do
        expect [':']
        g.returnType
      let isArrow ←
        if inBranch then
          wouldRead (do typed; expect ['=', '>']; discard (g.arrowBody noIn))
            fun c => c.rest.head? == some ':'
        else wouldRead typed fun c => ['=', '>'].isPrefixOf c.rest
      if isArrow then typed

/-- Whether items in round brackets are the parameters of an arrow function. The type of what the
function gives is passed. -/
def areParameters (g : Grammar) (noIn inBranch : Bool) (items : List RoundItem) : Parser Bool := do
  if items.all RoundItem.isParameter then
    g.arrowReturnType noIn inBranch
    startsArrow
  else pure false

/-- An expression in round brackets, or an arrow function whose parameters stand in them. -/
def roundRule (g : Grammar) (noIn inBranch : Bool) : Parser Tree := do
  let p ← here
  expect ['(']
  let comments := (← get).comments
  let (items, openEnded) ← g.roundItemsFrom g.fuel []
  let trees := items.map RoundItem.tree
  if ← g.areParameters noIn inBranch items then g.arrowRest noIn p trees
  else if openEnded || !items.all RoundItem.isValue then wrong
  else
    match trees with
    | [t] => pure (.node .parenthesized p (comments ++ [t]))
    | ts => pure (.node .parenthesized p (comments ++ [plain p ts]))

/-- What stands behind the word `async`, which has been passed: a function, or arguments of a call
of something that has this name. -/
def asyncRule (g : Grammar) (noIn inBranch : Bool) (p : Position) : Parser Tree := do
  let c ← get
  let asName : Tree := .node (.identifier "async") p []
  if c.newline then pure asName
  else if c.word == "function" then g.functionRule p false
  else if isName c.word then
    let w ← name
    if ← startsArrow then g.arrowRest noIn p [.node (.identifier w) c.place []]
    else wrong
  else if c.rest.head? == some '(' then
    skip 1
    let comments := (← get).comments
    let (items, _) ← g.roundItemsFrom g.fuel []
    let trees := items.map RoundItem.tree
    if ← g.areParameters noIn inBranch items then g.arrowRest noIn p trees
    else if items.any RoundItem.isTyped then wrong
    else pure (.node .call p [asName, .node .arguments c.place (comments ++ trees)])
  else if g.hasTypes && c.rest.head? == some '<' then
    let ps ← g.signature
    g.arrowRest noIn p ps
  else pure asName

def genericArrow (g : Grammar) (noIn : Bool) : Parser Tree := do
  let p ← here
  g.typeParameters
  let ps ← g.parameters
  g.arrowReturnType noIn false
  g.arrowRest noIn p ps

/-- Whether the angle bracket that comes next opens the parameters of a generic function, where
markup may be written. -/
def startsGeneric : Parser Bool := do
  let inside ← lookBehind 1
  let next := inside.skip (inside.word.length)
  pure (!inside.word.isEmpty && (next.rest.head? == some ',' || next.word == "extends"))

/-- What an angle bracket opens: markup, a generic arrow function, or a type that is asserted. -/
def angleRule (g : Grammar) (noIn : Bool) : Parser Tree := do
  if g.language.hasMarkup then
    if g.hasTypes && (← startsGeneric) then g.genericArrow noIn
    else
      let t ← g.parse .element
      skip 1
      pure t
  else
    let p ← here
    match ← attempt (g.genericArrow noIn) with
    | some t => pure t
    | none =>
      expect ['<']
      discard g.type
      expect ['>']
      let t ← g.parse (.operand unaryLevel noIn)
      pure (plain p [t])

/-! ### Operands -/

def valueWords : List String := ["this", "super", "null", "true", "false", "import"]

/-- What stands behind the word `new`, which has been passed. -/
def newRule (g : Grammar) (p : Position) : Parser Tree := do
  if ← accept ['.'] then
    discard anyWord
    pure (plain p [])
  else
    let t ← g.parse .constructed
    if g.hasTypes then
      if ← isNext ['<'] then discard (attempt g.typeArguments)
    if ← isNext ['('] then
      let args ← g.arguments
      pure (plain p [t, args])
    else pure (plain p [t])

def wordRule (g : Grammar) (noIn inBranch : Bool) (w : String) : Parser Tree := do
  let p ← here
  if w == "function" then g.functionRule p false
  else if w == "class" then g.classRule p []
  else if w == "new" then
    skip 3
    g.newRule p
  else if valueWords.contains w then
    skip w.length
    pure (.node (if w == "this" then .this else .other) p [])
  else if w == "async" then
    skip 5
    if ← startsArrow then g.arrowRest noIn p [.node (.identifier w) p []]
    else g.asyncRule noIn inBranch p
  else if isName w then
    skip w.length
    let t : Tree := .node (.identifier w) p []
    if ← startsArrow then g.arrowRest noIn p [t] else pure t
  else wrong

def literal (p : Position) : Option Nat → Parser Tree
  | some n => do
    skip n
    pure (plain p [])
  | none => unclosed p

/-- An operand without anything before or behind it. -/
def primary (g : Grammar) (noIn inBranch : Bool) : Parser Tree := do
  let c ← get
  match c.rest with
  | [] => wrong
  | d :: cs =>
    if d = '(' then g.roundRule noIn inBranch
    else if d = '[' then
      skip 1
      return .node .array c.place (← g.sparseList [']'] g.spreadOrValue)
    else if d = '\x7b' then
      skip 1
      return .node .object c.place (← g.commaList ['\x7d'] g.objectMember)
    else if d = '<' then g.angleRule noIn
    else if d = '"' ∨ d = '\'' then literal c.place (stringLength? c.rest)
    else if d = '`' then g.template
    else if d.isDigit || (d == '.' && cs.head?.any Char.isDigit) then
      literal c.place (some (numberLength c.rest))
    else if d = '/' then
      match regexLength? c.rest with
      | some n => literal c.place (some n)
      | none => wrong
    else if d = '#' then
      skip 1
      discard anyWord
      pure (plain c.place [])
    else if d = '@' then
      let marks ← g.decorators
      g.classRule c.place marks
    else g.wordRule noIn inBranch c.word

def propertyName : Parser Tree := do
  let p ← here
  let private_ ← accept ['#']
  let w ← anyWord
  pure (.node (.property (if private_ then "#" ++ w else w)) p [])

/-- Whether types in angle brackets may end before a cursor, so that they do not compare. -/
def endsTypeArguments (c : Cursor) : Bool :=
  match c.rest with
  | [] => true
  | d :: _ => c.newline || "()[],;:.?`".toList.contains d || d == '\x7d'

/-- An access or a call behind a question mark and a point, which have been passed. -/
def optionalRest (g : Grammar) (p : Position) (t : Tree) : Parser Tree := do
  let c ← get
  match c.rest.head? with
  | some '(' => return .node .call p [t, ← g.arguments]
  | some '[' =>
    skip 1
    let index ← g.expression
    expect [']']
    pure (.node .subscript p [t, index])
  | some '<' =>
    g.typeArguments
    return .node .call p [t, ← g.arguments]
  | some '`' => return .node .call p [t, ← g.template]
  | _ => return .node .member p [t, ← propertyName]

/-- What stands behind an operand: accesses, calls and marks. Behind `new`, calls are left over. -/
def postfixFrom (g : Grammar) (noCall : Bool) (p : Position) : Nat → Tree → Parser Tree
  | 0, _ => wrong
  | n + 1, t => do
    let c ← get
    match c.rest with
    | '.' :: d :: _ =>
      if d = '.' then pure t
      else
        skip 1
        let w ← propertyName
        g.postfixFrom noCall p n (.node .member p [t, w])
    | '?' :: '.' :: d :: _ =>
      if d.isDigit || noCall then pure t
      else
        skip 2
        let t ← g.optionalRest p t
        g.postfixFrom noCall p n t
    | '[' :: _ =>
      skip 1
      let index ← g.expression
      expect [']']
      g.postfixFrom noCall p n (.node .subscript p [t, index])
    | '(' :: _ =>
      if noCall then pure t
      else
        let args ← g.arguments
        g.postfixFrom noCall p n (.node .call p [t, args])
    | '`' :: _ =>
      let args ← g.template
      g.postfixFrom noCall p n (.node .call p [t, args])
    | '!' :: cs =>
      if g.hasTypes && !c.newline && cs.head? != some '=' then
        skip 1
        g.postfixFrom noCall p n (.node .nonNull p [t])
      else pure t
    | '+' :: '+' :: _ =>
      if c.newline then pure t
      else
        skip 2
        pure (plain p [t])
    | '-' :: '-' :: _ =>
      if c.newline then pure t
      else
        skip 2
        pure (plain p [t])
    | '<' :: d :: _ =>
      if !g.hasTypes || d = '=' || d = '<' || noCall then pure t
      else if ← wouldRead g.typeArguments endsTypeArguments then
        g.typeArguments
        if ← isNext ['('] then
          let args ← g.arguments
          g.postfixFrom noCall p n (.node .call p [t, args])
        else g.postfixFrom noCall p n (plain p [t])
      else pure t
    | _ => pure t

/-- Whether a node is an arrow function, which takes in everything behind it. -/
def isArrow (t : Tree) : Bool := t.kind == .arrow

/-- What stands behind `new`. -/
def constructedRule (g : Grammar) : Parser Tree := do
  let p ← here
  let t ← g.primary false false
  g.postfixFrom true p g.fuel t

/-- Whether the word `await` has an operand. -/
def startsOperand (c : Cursor) : Bool :=
  match c.rest with
  | [] => false
  | d :: _ => !(")],;=.?:".toList.contains d || d == '\x7d')

/-- An operand with operators before it. -/
def unary (g : Grammar) (noIn inBranch : Bool) : Parser Tree := do
  let c ← get
  match unaryLength? c.rest with
  | some n =>
    skip n
    let t ← g.parse (.operand unaryLevel noIn)
    pure (plain c.place [t])
  | none =>
    let w := c.word
    if unaryWords.contains w && (w != "await" || startsOperand (c.skip 5)) then
      skip w.length
      let t ← g.parse (.operand unaryLevel noIn)
      pure (plain c.place [t])
    else
      let t ← g.primary noIn inBranch
      if isArrow t then pure t else g.postfixFrom false c.place g.fuel t

/-! ### Operators -/

/-- The level of a word that is an operator between operands. -/
def wordOperator (g : Grammar) (noIn : Bool) (c : Cursor) : Option String :=
  let w := c.word
  if w == "instanceof" || (w == "in" && !noIn) then some w
  else if g.hasTypes && !c.newline && (w == "as" || w == "satisfies") then some w
  else none

/-- What stands behind an operand: operators that bind at least so tightly, and their operands. -/
def infixFrom (g : Grammar) (noIn : Bool) (level : Nat) (p : Position) : Nat → Tree → Parser Tree
  | 0, _ => wrong
  | n + 1, t => do
    let c ← get
    match binaryOperator? c.rest with
    | some op =>
      if op.level < level then pure t
      else
        skip op.name.length
        let tighter := if op.level = powerLevel then powerLevel else op.level + 1
        let u ← g.parse (.operand tighter noIn)
        g.infixFrom noIn level p n (.node (.binary op.name) p [t, u])
    | none =>
      match g.wordOperator noIn c with
      | some w =>
        if relationLevel < level then pure t
        else
          skip w.length
          if w == "as" || w == "satisfies" then
            discard g.type
            g.infixFrom noIn level p n (plain p [t])
          else
            let u ← g.parse (.operand (relationLevel + 1) noIn)
            g.infixFrom noIn level p n (.node (.binary w) p [t, u])
      | none => pure t

/-- Operands of operators that bind at least so tightly. -/
def operandRule (g : Grammar) (level : Nat) (noIn : Bool) : Parser Tree := do
  let p ← here
  let t ← g.unary noIn false
  g.infixFrom noIn level p g.fuel t

/-- Whether a question mark stands behind the name of a parameter. -/
def marksParameter (g : Grammar) (c : Cursor) : Bool :=
  g.hasTypes &&
    match (c.skip 1).rest with
    | d :: _ => ":,)=".toList.contains d
    | [] => false

def choiceRest (g : Grammar) (noIn inBranch : Bool) (p : Position) (t : Tree) : Parser Tree := do
  let c ← get
  if c.rest.head? == some '?' && !g.marksParameter c then
    skip 1
    let u ← g.parse (.assignment false true)
    expect [':']
    let v ← g.parse (.assignment noIn inBranch)
    pure (.node .ternary p [t, u, v])
  else pure t

def yieldRule (g : Grammar) (noIn inBranch : Bool) : Parser Tree := do
  let p ← here
  skip 5
  let all ← accept ['*']
  let c ← get
  if all || (!c.newline && startsOperand c) then
    let t ← g.parse (.assignment noIn inBranch)
    pure (plain p [t])
  else pure (plain p [])

def assignmentRule (g : Grammar) (noIn inBranch : Bool) : Parser Tree := do
  let c ← get
  if c.word == "yield" then g.yieldRule noIn inBranch
  else
    let p := c.place
    let t ← g.unary noIn inBranch
    if isArrow t then pure t
    else
      match assignmentLength? (← get).rest with
      | some n =>
        if t.isAssignable (n == 1) then
          skip n
          let u ← g.parse (.assignment noIn inBranch)
          pure (.node (if n == 1 then .assignment else .other) p [t, u])
        else wrong
      | none =>
        let t ← g.infixFrom noIn 0 p g.fuel t
        g.choiceRest noIn inBranch p t

/-- What stands behind an expression with commas. -/
def sequenceFrom (g : Grammar) (noIn : Bool) : Nat → List Tree → Parser (List Tree)
  | 0, _ => wrong
  | n + 1, found => do
    if ← accept [','] then
      let t ← g.parse (.assignment noIn false)
      g.sequenceFrom noIn n (t :: found)
    else pure found.reverse

def expressionRule (g : Grammar) (noIn : Bool) : Parser Tree := do
  let p ← here
  let t ← g.parse (.assignment noIn false)
  if ← isNext [','] then
    let ts ← g.sequenceFrom noIn g.fuel [t]
    pure (plain p ts)
  else pure t

end Grammar

end CodeHealth.Script
