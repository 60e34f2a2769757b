import CodeHealth.Script.Grammar

/-!
Elements of markup. An element is an opening tag, contents and a closing tag, or a tag alone. The
names of the two tags are not compared.
-/

namespace CodeHealth.Script

open Text

/-- Whether a character may go on the name of a tag or an attribute, which may hold hyphens. -/
def isTagPart (c : Char) : Bool := isWordPart c || c == '-'

/-- The length of the name of a tag or an attribute, or zero. -/
def tagNameLength : List Char → Nat
  | [] => 0
  | c :: cs => if isWordStart c then 1 + (cs.takeWhile isTagPart).length else 0

/-- Reads one part of the name of a tag or an attribute. -/
def tagWord : Parser String := do
  let c ← get
  match tagNameLength c.rest with
  | 0 => wrong
  | n =>
    skip n
    pure (String.ofList (c.rest.take n))

/-- Reads the name of a tag: words with points or a colon between them. -/
def tagName (fuel : Nat) : Parser Unit := do
  discard tagWord
  discard (collect (do
    if (← accept ['.']) || (← accept [':']) then
      discard tagWord
      pure (some ())
    else pure none) fuel [])

/-- The length of a stretch of text between tags: up to a tag or a brace. -/
def textLength (cs : List Char) : Nat :=
  (cs.takeWhile fun c => c != '<' && c != '>' && c != '\x7b' && c != '\x7d').length

namespace Grammar

/-- An expression in braces. Gives the expression, which may be missing or spread an object, and the
comments before it. The closing brace is not passed. -/
def bracedExpression (g : Grammar) : Parser Tree := do
  let p ← here
  expect ['\x7b']
  let c ← get
  if c.rest.head? == some '\x7d' then pure (.node .markupExpression p c.comments)
  else if ← accept ['.', '.', '.'] then
    let t ← g.value
    unless ← isNext ['\x7d'] do wrong
    pure (.node .markupExpression p (c.comments ++ [.node .spread c.place [t]]))
  else
    let t ← g.expression
    unless ← isNext ['\x7d'] do wrong
    pure (.node .markupExpression p (c.comments ++ [t]))

def attributeValue (g : Grammar) : Parser Tree := do
  let c ← get
  match c.rest.head? with
  | some '\x7b' =>
    let t ← g.bracedExpression
    skip 1
    pure t
  | some '<' => g.parse .element
  | some '"' =>
    match plainStringLength? c.rest with
    | some n =>
      skip n
      pure (.node .other c.place [])
    | none => unclosed c.place
  | some '\'' =>
    match plainStringLength? c.rest with
    | some n =>
      skip n
      pure (.node .other c.place [])
    | none => unclosed c.place
  | _ => wrong

def tagAttribute (g : Grammar) : Parser Tree := do
  let p ← here
  if ← isNext ['\x7b'] then
    let t ← g.bracedExpression
    skip 1
    pure t
  else
    let w ← tagWord
    let spaced ← accept [':']
    let full ← if spaced then (fun v => w ++ ":" ++ v) <$> tagWord else pure w
    if ← accept ['='] then
      let t ← g.attributeValue
      pure (.node (.markupAttribute full) p [t])
    else pure (.node (.markupAttribute full) p [])

def tagAttributes (g : Grammar) : Parser (List Tree) :=
  collect (do
    let c ← get
    match c.rest with
    | [] => pure none
    | d :: _ => if d = '>' ∨ d = '/' then pure none else return some (← g.tagAttribute)) g.fuel []

/-- The contents of an element up to its closing tag, which is passed but for its last
character. -/
def contentsFrom (g : Grammar) (opening : Position) : Nat → List Tree → Parser (List Tree)
  | 0, _ => wrong
  | n + 1, found => do
    let c ← get
    match c.rest with
    | [] => unclosed opening
    | d :: cs =>
      if d = '<' then
        if ((c.skip 1).rest.head?) == some '/' then
          skip 1
          skip 1
          unless ← isNext ['>'] do tagName g.fuel
          unless ← isNext ['>'] do wrong
          pure found.reverse
        else
          let t ← g.parse .element
          skipBare 1
          g.contentsFrom opening n (t :: found)
      else if d = '\x7b' then
        let t ← g.bracedExpression
        skipBare 1
        g.contentsFrom opening n (t :: found)
      else
        match textLength (d :: cs) with
        | 0 => wrong
        | k =>
          skipBare k
          g.contentsFrom opening n found

/-- An element. Its last character is not passed, because what follows may be text. -/
def elementRule (g : Grammar) : Parser Tree := do
  let p ← here
  expect ['<']
  if ← isNext ['>'] then
    skipBare 1
    let contents ← g.contentsFrom p g.fuel []
    pure (.node .markupElement p (.node (.markupOpening true) p [] :: contents))
  else
    tagName g.fuel
    if g.hasTypes then
      if ← accept ['<'] then discard (g.commaList ['>'] g.type)
    let attrs ← g.tagAttributes
    if ← accept ['/'] then
      unless ← isNext ['>'] do wrong
      pure (.node .markupSelfClosing p attrs)
    else
      unless ← isNext ['>'] do wrong
      skipBare 1
      let contents ← g.contentsFrom p g.fuel []
      pure (.node .markupElement p (.node (.markupOpening false) p attrs :: contents))

end Grammar

end CodeHealth.Script
