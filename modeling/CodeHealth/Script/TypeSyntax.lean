import CodeHealth.Script.Grammar

/-!
Types. A type becomes a node without children, since no rule looks inside of it.
-/

namespace CodeHealth.Script

open Text

/-- A node whose kind does not matter. -/
def plain (p : Position) (children : List Tree) : Tree := .node .other p children

/-- Whether a word may start behind the given one on the same line. -/
def Cursor.hasWordBehind (c : Cursor) (w : String) : Bool :=
  let next := c.skip w.length
  !next.newline && !next.word.isEmpty

def stringLiteral : Parser Unit := do
  let c ← get
  match stringLength? c.rest with
  | some n => skip n
  | none => wrong

namespace Grammar

/-- The types in angle brackets behind a name. -/
def typeArguments (g : Grammar) : Parser Unit := do
  expect ['<']
  discard (g.commaList ['>'] g.type)

/-- The types in angle brackets behind a name, if there are any. -/
def optionalTypeArguments (g : Grammar) : Parser Unit := do
  let c ← get
  if c.rest.head? == some '<' && !c.newline then g.typeArguments

def typeParameter (g : Grammar) : Parser Unit := do
  discard (collect (do
    let c ← get
    let w := c.word
    if ["const", "in", "out"].contains w && c.hasWordBehind w then
      skip w.length
      pure (some ())
    else pure none) g.fuel [])
  discard anyWord
  if ← acceptWord "extends" then discard g.type
  if ← accept ['='] then discard g.type

def typeParameters (g : Grammar) : Parser Unit := do
  expect ['<']
  discard (g.commaList ['>'] g.typeParameter)

/-- The parameters of a generic declaration, if there are any. -/
def optionalTypeParameters (g : Grammar) : Parser Unit := do
  if g.hasTypes then
    if ← isNext ['<'] then g.typeParameters

/-! ### Functions -/

def functionTypeParameter (g : Grammar) : Parser Unit := do
  discard (accept ['.', '.', '.'])
  if ← acceptWord "this" then pure () else discard (g.parse .binding)
  discard (accept ['?'])
  g.optionalType
  discard g.initializer

def functionTypeParameters (g : Grammar) : Parser Unit := do
  expect ['(']
  discard (g.commaList [')'] g.functionTypeParameter)

/-- What a function gives: a type, or what is known when it gives something. -/
def returnType (g : Grammar) : Parser Unit := do
  let c ← get
  if c.word == "asserts" && c.hasWordBehind "asserts" then
    skip 7
    discard anyWord
    if ← acceptWord "is" then discard g.type
  else
    let w := c.word
    let next := c.skip w.length
    if !w.isEmpty && next.word == "is" && !next.newline then
      skip w.length
      expectWord "is"
    discard g.type

/-- Parameters, an arrow, and what a function gives. -/
def functionType (g : Grammar) : Parser Unit := do
  g.optionalTypeParameters
  g.functionTypeParameters
  expect ['=', '>']
  g.returnType

/-- Whether what stands behind the name of a parameter shows that it is one. -/
def endsParameter (c : Cursor) : Bool :=
  match c.rest with
  | ':' :: _ => true
  | ',' :: _ => true
  | '?' :: _ => true
  | '=' :: _ => true
  | ')' :: _ => ['=', '>'].isPrefixOf (c.skip 1).rest
  | _ => false

/-- Whether the round bracket that comes next opens the parameters of a function type. -/
def startsFunctionType (g : Grammar) : Parser Bool := do
  let inside ← lookBehind 1
  match inside.rest with
  | ')' :: _ => pure true
  | '.' :: _ => pure true
  | _ =>
    if inside.rest.head? == some '\x7b' || inside.rest.head? == some '[' then
      wouldRead (do expect ['(']; discard (g.parse .binding)) endsParameter
    else
      let w := inside.word
      pure (!w.isEmpty && endsParameter (inside.skip w.length))

/-! ### Members of object types -/

/-- The sign of a mark of a mapped type, and the mark. -/
def mappedMark (mark : Parser Bool) : Parser Unit := do
  if (← accept ['+']) || (← accept ['-']) then
    unless ← mark do wrong
  else discard mark

/-- A function or a type behind the name of a member. -/
def memberSignature (g : Grammar) : Parser Unit := do
  discard (accept ['?'])
  if (← isNext ['(']) || (← isNext ['<']) then
    g.optionalTypeParameters
    g.functionTypeParameters
    if ← accept [':'] then g.returnType
  else g.optionalType

/-- A member whose name stands in square brackets: an index, a mapping, or a value. -/
def bracketMember (g : Grammar) : Parser Unit := do
  expect ['[']
  let c ← get
  let w := c.word
  let next := c.skip w.length
  if !w.isEmpty && next.word == "in" then
    skip w.length
    expectWord "in"
    discard g.type
    if ← acceptWord "as" then discard g.type
    expect [']']
    mappedMark (accept ['?'])
    g.optionalType
  else if !w.isEmpty && next.rest.head? == some ':' then
    skip w.length
    g.optionalType
    expect [']']
    g.memberSignature
  else
    discard g.expression
    expect [']']
    g.memberSignature

/-- The name of a member that is not in square brackets. -/
def plainMemberName : Parser Unit := do
  let c ← get
  match c.rest with
  | [] => wrong
  | d :: _ =>
    if d = '"' ∨ d = '\'' then stringLiteral
    else if d.isDigit then skip (numberLength c.rest)
    else if d = '#' then
      skip 1
      discard anyWord
    else discard anyWord

/-- Whether a word is the name of a member, judged by what stands behind it. -/
def endsMemberName (c : Cursor) : Bool :=
  match c.rest with
  | [] => true
  | d :: _ => "?:(<;,=!".toList.contains d || d == '\x7d'

def typeMember (g : Grammar) : Parser Unit := do
  let c ← get
  if c.rest.head? == some '+' || c.rest.head? == some '-' then
    mappedMark (acceptWord "readonly")
    g.bracketMember
  else if c.rest.head? == some '(' || c.rest.head? == some '<' then g.memberSignature
  else
    let w := c.word
    let next := c.skip w.length
    if w == "new" then
      if next.rest.head? == some '(' || next.rest.head? == some '<' then skip 3
    else if ["readonly", "get", "set"].contains w && !endsMemberName next then skip w.length
    if ← isNext ['['] then g.bracketMember
    else if (← isNext ['(']) || (← isNext ['<']) then g.memberSignature
    else
      plainMemberName
      g.memberSignature

/-- The members of an object type up to its end. Semicolons, commas and ends of lines part
them. -/
def typeMembers (g : Grammar) : Parser Unit := do
  expect ['\x7b']
  discard (collect (do
    if ← accept ['\x7d'] then pure none
    else if (← accept [';']) || (← accept [',']) then pure (some ())
    else
      g.typeMember
      let c ← get
      if (← accept [';']) || (← accept [',']) || c.newline || c.rest.head? == some '\x7d' then
        pure (some ())
      else wrong) g.fuel [])

/-! ### Types -/

/-- A name with points and types in angle brackets. -/
def namedType (g : Grammar) : Parser Unit := do
  discard anyWord
  discard (collect (do
    if ← accept ['.'] then
      discard anyWord
      pure (some ())
    else pure none) g.fuel [])
  g.optionalTypeArguments

/-- One part of a tuple: a type that may have a name, be missing, or stand for the rest. -/
def tuplePart (g : Grammar) : Parser Unit := do
  discard (accept ['.', '.', '.'])
  let c ← get
  let w := c.word
  let next := c.skip w.length
  let named := match next.rest with
    | ':' :: _ => !w.isEmpty
    | '?' :: cs => !w.isEmpty && (cs.dropWhile isGap).head? == some ':'
    | _ => false
  if named then
    skip w.length
    discard (accept ['?'])
    expect [':']
  discard g.type
  discard (accept ['?'])

def templateTypeFrom (g : Grammar) (p : Position) : Nat → Parser Unit
  | 0 => wrong
  | n + 1 => do
    match chunkLength? (← get).rest with
    | none => unclosed p
    | some (length, .quote) => skip (length + 1)
    | some (length, .substitution) =>
      skip (length + 2)
      discard g.type
      unless ← isNext ['\x7d'] do wrong
      skipBare 1
      g.templateTypeFrom p n

def wordType (g : Grammar) : Parser Unit := do
  let w ← nextWord
  match w with
  | "typeof" =>
    skip 6
    if (← isNextWord "import") then
      skip 6
      expect ['(']
      discard (g.commaList [')'] g.type)
      if ← accept ['.'] then g.namedType
    else g.namedType
  | "import" =>
    skip 6
    expect ['(']
    discard (g.commaList [')'] g.type)
    if ← accept ['.'] then g.namedType else g.optionalTypeArguments
  | _ => g.namedType

/-- A type without anything behind it. -/
def simpleType (g : Grammar) : Parser Unit := do
  let c ← get
  match c.rest with
  | [] => wrong
  | d :: _ =>
    if d = '\x7b' then g.typeMembers
    else if d = '[' then
      skip 1
      discard (g.commaList [']'] g.tuplePart)
    else if d = '(' then
      skip 1
      discard g.type
      expect [')']
    else if d = '"' ∨ d = '\'' then stringLiteral
    else if d = '`' then
      skipBare 1
      g.templateTypeFrom c.place g.fuel
    else if d.isDigit then skip (numberLength c.rest)
    else if d = '-' then
      skip 1
      let c ← get
      if c.rest.head?.any Char.isDigit then skip (numberLength c.rest) else wrong
    else if wordLength c.rest = 0 then wrong
    else g.wordType

/-- A type with square brackets behind it. -/
def postfixType (g : Grammar) : Parser Unit := do
  g.simpleType
  discard (collect (do
    let c ← get
    if c.rest.head? == some '[' && !c.newline then
      skip 1
      unless ← accept [']'] do
        discard g.type
        expect [']']
      pure (some ())
    else pure none) g.fuel [])

/-- The operators that stand before types. -/
def typeOperators : List String := ["keyof", "unique", "readonly", "infer", "asserts"]

def operatorType (g : Grammar) : Parser Unit := do
  let operators ← collect (do
    let c ← get
    let w := c.word
    let next := c.skip w.length
    if typeOperators.contains w && !next.newline &&
        (!next.word.isEmpty || "([`\"'".toList.any (next.rest.head? == some ·) ||
          next.rest.head? == some '\x7b') && next.word != "extends" then
      skip w.length
      pure (some w)
    else pure none) g.fuel []
  g.postfixType
  if operators.getLast? == some "infer" then
    if ← isNextWord "extends" then
      let bound := do
        expectWord "extends"
        discard (g.parse (.type true))
      if ← wouldRead bound fun c => c.rest.head? != some '?' then bound

/-- Types with a mark between them; one may stand before the first. -/
def typesBetween (g : Grammar) (mark : List Char) (part : Parser Unit) : Parser Unit := do
  discard (accept mark)
  part
  discard (collect (do
    if ← accept mark then
      part
      pure (some ())
    else pure none) g.fuel [])

/-- A function type, or one with operators. -/
def unionPart (g : Grammar) : Parser Unit := do
  let c ← get
  if c.rest.head? == some '<' then g.functionType
  else if c.rest.head? == some '(' then
    if ← g.startsFunctionType then g.functionType else g.operatorType
  else
    let w := c.word
    if w == "abstract" && (c.skip 8).word == "new" then
      skip 8
      expectWord "new"
      g.functionType
    else if w == "new" then
      skip 3
      g.functionType
    else g.operatorType

/-- A type: alternatives of combinations, which may depend on what a type extends. -/
def typeRule (g : Grammar) (bare : Bool) : Parser Tree := do
  let p ← here
  g.typesBetween ['|'] (g.typesBetween ['&'] g.unionPart)
  unless bare do
    let c ← get
    if c.word == "extends" && !c.newline then
      skip 7
      discard (g.parse (.type true))
      expect ['?']
      discard g.type
      expect [':']
      discard g.type
  pure (plain p [])

end Grammar

end CodeHealth.Script
