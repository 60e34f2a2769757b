import CodeHealth.Script.Declaration

/-!
What a script takes from others and gives to them.
-/

namespace CodeHealth.Script

open Text

namespace Grammar

/-- A word or a string that names something of another script. -/
def sharedName : Parser Unit := do
  let c ← get
  if c.rest.head? == some '"' || c.rest.head? == some '\'' then stringLiteral
  else discard anyWord

/-- One name in braces, with the name that it has here. The word `type` may stand before. -/
def specifier (g : Grammar) : Parser Unit := do
  if g.hasTypes then
    let c ← get
    if c.word == "type" then
      let next := c.skip 4
      if !next.word.isEmpty && (next.word != "as" || !(next.skip 2).word.isEmpty) then skip 4
  sharedName
  if ← acceptWord "as" then sharedName

def specifiers (g : Grammar) : Parser Unit := do
  expect ['\x7b']
  discard (g.commaList ['\x7d'] g.specifier)

/-- What is said about how a script is to be read. -/
def attributesRest (g : Grammar) : Parser Unit := do
  let c ← get
  if (c.word == "with" || c.word == "assert") && !c.newline then
    skip c.word.length
    expect ['\x7b']
    discard (g.commaList ['\x7d'] g.objectMember)

def source (g : Grammar) : Parser Unit := do
  stringLiteral
  g.attributesRest

/-- The names that are imported, up to the word before their source. -/
def importClause (g : Grammar) : Parser Unit := do
  let c ← get
  let rest := do
    if ← accept ['*'] then
      expectWord "as"
      discard name
    else g.specifiers
  if isName c.word then
    discard name
    if ← accept [','] then rest
  else rest

/-- A name for something of a space of names, or of a script that is required. -/
def importAlias (g : Grammar) (p : Position) : Parser Tree := do
  discard name
  expect ['=']
  let t ← g.value
  endStatement
  pure (plain p [t])

/-- An import behind its first word, which has been passed. -/
def importRest (g : Grammar) (p : Position) : Parser Tree := do
  let c ← get
  if c.rest.head? == some '"' || c.rest.head? == some '\'' then
    g.source
    endStatement
    pure (plain p [])
  else
    let next := c.skip c.word.length
    if g.hasTypes && c.word == "type" && (next.rest.head? == some '\x7b' ||
        next.rest.head? == some '*' || (isName next.word &&
          (next.word != "from" || (next.skip 4).word == "from"))) then skip 4
    let c ← get
    if g.hasTypes && isName c.word && (c.skip c.word.length).rest.head? == some '=' then
      g.importAlias p
    else
      g.importClause
      expectWord "from"
      g.source
      endStatement
      pure (plain p [])

/-- Whether the word `import` at a cursor starts an expression. -/
def importsAsValue (c : Cursor) : Bool :=
  match (c.skip 6).rest.head? with
  | some '(' => true
  | some '.' => true
  | _ => false

/-- What is exported under the word `default`, which has been passed. -/
def exportDefault (g : Grammar) (p : Position) (marks : List Tree) : Parser Tree := do
  let c ← get
  let w := c.word
  let next := c.skip w.length
  if w == "function" || (w == "async" && next.word == "function" && !next.newline) then
    if w == "async" then skip 5
    let t ← g.functionRule c.place true
    pure (plain p (marks ++ [t]))
  else if w == "class" then
    let t ← g.classRule c.place marks
    pure (plain p [t])
  else if g.hasTypes && w == "abstract" && next.word == "class" then
    let t ← g.abstractRule c.place marks
    pure (plain p [t])
  else if g.hasTypes && w == "interface" && namesBehind c w then
    let t ← g.interfaceRule c.place
    pure (plain p [t])
  else if c.rest.head? == some '@' then
    let more ← g.decorators
    let t ← g.classRule c.place (marks ++ more)
    pure (plain p [t])
  else
    let t ← g.expression
    endStatement
    pure (plain p [t])

/-- An export; the decorators before it are given. -/
def exportRule (g : Grammar) (p : Position) (marks : List Tree) : Parser Tree := do
  skip 6
  if ← acceptWord "default" then g.exportDefault p marks
  else if ← accept ['*'] then
    if ← acceptWord "as" then sharedName
    expectWord "from"
    g.source
    endStatement
    pure (plain p [])
  else
    let c ← get
    let next := c.skip c.word.length
    if g.hasTypes && c.rest.head? == some '=' then
      skip 1
      let t ← g.expression
      endStatement
      pure (plain p [t])
    else if g.hasTypes && c.word == "as" && next.word == "namespace" then
      skip 2
      expectWord "namespace"
      discard name
      endStatement
      pure (plain p [])
    else if g.hasTypes && c.word == "import" then
      skip 6
      g.importAlias p
    else if g.hasTypes && c.word == "type" && next.rest.head? == some '*' then
      skip 4
      skip 1
      if ← acceptWord "as" then sharedName
      expectWord "from"
      g.source
      endStatement
      pure (plain p [])
    else
      if g.hasTypes && c.word == "type" && next.rest.head? == some '\x7b' then skip 4
      if ← isNext ['\x7b'] then
        g.specifiers
        if ← acceptWord "from" then g.source
        endStatement
        pure (plain p [])
      else if c.rest.head? == some '@' || c.word == "class" ||
          (g.hasTypes && c.word == "abstract" && next.word == "class") then
        let more ← g.decorators
        let abstract ← if g.hasTypes then isNextWord "abstract" else pure false
        let t ← if abstract then g.abstractRule c.place (marks ++ more)
          else g.classRule c.place (marks ++ more)
        pure (plain p [t])
      else if isDeclaration c then
        let t ← g.statement
        pure (plain p [t])
      else wrong
where
  /-- Whether a declaration starts at a cursor. -/
  isDeclaration (c : Cursor) : Bool :=
    ["var", "const", "let", "function", "async", "type", "interface", "enum", "namespace",
      "module", "declare"].contains c.word

/-- A class or an export behind decorators. -/
def decoratedRule (g : Grammar) : Parser Tree := do
  let p ← here
  let marks ← g.decorators
  if ← isNextWord "export" then g.exportRule p marks
  else if g.hasTypes && (← isNextWord "abstract") then g.abstractRule p marks
  else g.classRule p marks

def statementRule (g : Grammar) : Parser Tree := do
  let c ← get
  let p := c.place
  match c.rest with
  | [] => wrong
  | d :: _ =>
    if d = '\x7b' then g.parse .block
    else if d = ';' then
      skip 1
      pure (plain p [])
    else if d = '@' then g.decoratedRule
    else
      let w := c.word
      if w == "import" && !importsAsValue c then
        skip 6
        g.importRest p
      else if w == "export" then g.exportRule p []
      else
        let typed ← if g.hasTypes then g.typeStatement c w else pure none
        match typed with
        | some t => pure t
        | none =>
          match ← g.keywordStatement p w with
          | some t => pure t
          | none => g.wordStatement c w

end Grammar

end CodeHealth.Script
