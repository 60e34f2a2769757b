import CodeHealth.Script.Statement

/-!
Declarations of types, and what is known of the world outside.
-/

namespace CodeHealth.Script

open Text

namespace Grammar

/-- The name of a type that stands for another. -/
def aliasRule (g : Grammar) (p : Position) : Parser Tree := do
  expectWord "type"
  discard anyWord
  g.optionalTypeParameters
  expect ['=']
  discard g.type
  endStatement
  pure (plain p [])

def interfaceRule (g : Grammar) (p : Position) : Parser Tree := do
  expectWord "interface"
  discard anyWord
  g.optionalTypeParameters
  if ← acceptWord "extends" then g.typesBetween [','] (discard g.type)
  g.typeMembers
  pure (plain p [])

/-- One name of an enumeration with its value. -/
def enumMember (g : Grammar) : Parser Tree := do
  let p ← here
  let key ← g.memberKey
  let value ← g.initializer
  pure (plain p (key ++ value))

def enumRule (g : Grammar) (p : Position) : Parser Tree := do
  discard (acceptWord "const")
  expectWord "enum"
  discard name
  expect ['\x7b']
  let members ← g.commaList ['\x7d'] g.enumMember
  pure (plain p members)

/-- A space of names, or a module with a name in quotes. Without a body it is only known to be
there. -/
def namespaceRule (g : Grammar) (p : Position) : Parser Tree := do
  discard anyWord
  let c ← get
  if c.rest.head? == some '"' || c.rest.head? == some '\'' then stringLiteral
  else
    discard name
    discard (collect (do
      if ← accept ['.'] then
        discard anyWord
        pure (some ())
      else pure none) g.fuel [])
  if ← isNext ['\x7b'] then
    let body ← g.parse .block
    pure (plain p [body])
  else
    endStatement
    pure (plain p [])

/-- An abstract class behind its decorators. -/
def abstractRule (g : Grammar) (p : Position) (marks : List Tree) : Parser Tree := do
  expectWord "abstract"
  g.classRule p marks

def declareRule (g : Grammar) (p : Position) : Parser Tree := do
  expectWord "declare"
  let c ← get
  if c.word == "global" && (c.skip 6).rest.head? == some '\x7b' then
    skip 6
    let body ← g.parse .block
    pure (plain p [body])
  else
    let t ← g.statement
    pure (plain p [t])

/-- Whether a name stands behind the word at a cursor, on the same line. -/
def namesBehind (c : Cursor) (w : String) : Bool :=
  let next := c.skip w.length
  isName next.word && !next.newline

/-- A declaration that belongs to types, if one starts at the cursor. -/
def typeStatement (g : Grammar) (c : Cursor) (w : String) : Parser (Option Tree) := do
  let p := c.place
  let next := c.skip w.length
  match w with
  | "type" => if namesBehind c w then return some (← g.aliasRule p) else pure none
  | "interface" => if namesBehind c w then return some (← g.interfaceRule p) else pure none
  | "enum" => return some (← g.enumRule p)
  | "const" => if next.word == "enum" then return some (← g.enumRule p) else pure none
  | "namespace" => if namesBehind c w then return some (← g.namespaceRule p) else pure none
  | "module" =>
    if namesBehind c w || (!next.newline &&
        (next.rest.head? == some '"' || next.rest.head? == some '\'')) then
      return some (← g.namespaceRule p)
    else pure none
  | "abstract" =>
    if next.word == "class" && !next.newline then return some (← g.abstractRule p [])
    else pure none
  | "declare" =>
    if !next.word.isEmpty && !next.newline && next.word != "in" && next.word != "instanceof" then
      return some (← g.declareRule p)
    else pure none
  | _ => pure none

end Grammar

end CodeHealth.Script
