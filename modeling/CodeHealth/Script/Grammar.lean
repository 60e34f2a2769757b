import CodeHealth.Script.Literal

/-!
The frame of the grammar. A parser reads from a cursor on, and gives what it read or the error it
met. The parts of the grammar that contain each other are goals: each part is written as if all
goals could be parsed already, and the script parser ties them together.
-/

namespace CodeHealth.Script

open Text

abbrev Parser := StateT Cursor (Except SyntaxError)

/-- The parts of the grammar that contain each other. -/
inductive Goal where
  | statement
  | block
  /-- An expression with commas. Where `noIn` is set, the word `in` ends it. -/
  | expression (noIn : Bool)
  /-- An expression without commas. In a branch of a choice, a colon behind brackets belongs to the
  choice. -/
  | assignment (noIn inBranch : Bool)
  /-- Operands of operators that bind at least so tightly. -/
  | operand (level : Nat) (noIn : Bool)
  /-- What stands behind `new`. -/
  | constructed
  /-- A name that is bound, or a pattern of such names. -/
  | binding
  /-- A type. Where `bare` is set, the word `extends` ends it. -/
  | type (bare : Bool)
  /-- An element of markup. -/
  | element
deriving DecidableEq, Repr

structure Grammar where
  language : Language
  /-- How often a part may repeat something. -/
  fuel : Nat
  parse : Goal → Parser Tree

/-! ### Tokens -/

/-- The next token does not fit. -/
def wrong {α : Type} : Parser α := fun c => .error c.error

/-- What starts at a place is never completed. -/
def unclosed {α : Type} (p : Position) : Parser α := fun _ => .error ⟨p.line⟩

/-- The place of the next token. -/
def here : Parser Position := return (← get).place

/-- Passes the next `n` characters. -/
def skip (n : Nat) : Parser Unit := modify fun c => c.skip n

/-- Passes the next `n` characters and stops right behind them. -/
def skipBare (n : Nat) : Parser Unit := modify fun c => c.skipBare n

/-- Whether the given characters come next. -/
def isNext (mark : List Char) : Parser Bool := return mark.isPrefixOf (← get).rest

/-- Passes the given characters if they come next, and tells whether they did. -/
def accept (mark : List Char) : Parser Bool := do
  if ← isNext mark then
    skip mark.length
    pure true
  else pure false

/-- Passes the given characters, which have to come next. -/
def expect (mark : List Char) : Parser Unit := do
  unless ← accept mark do wrong

/-- The word that comes next, or nothing as text. -/
def nextWord : Parser String := return (← get).word

def isNextWord (w : String) : Parser Bool := return (← get).word == w

/-- Passes the given word if it comes next, and tells whether it did. -/
def acceptWord (w : String) : Parser Bool := do
  if ← isNextWord w then
    skip w.length
    pure true
  else pure false

/-- Passes the given word, which has to come next. -/
def expectWord (w : String) : Parser Unit := do
  unless ← acceptWord w do wrong

def anyWord : Parser String := do
  let w ← nextWord
  if w.isEmpty then wrong
  else
    skip w.length
    pure w

def name : Parser String := do
  let w ← nextWord
  if isName w then
    skip w.length
    pure w
  else wrong

def atEnd : Parser Bool := return (← get).isEnd

/-- What would be there if `n` characters were passed. -/
def lookBehind (n : Nat) : Parser Cursor := return (← get).skip n

/-- Reads something if it is there; otherwise nothing is passed. -/
def attempt {α : Type} (p : Parser α) : Parser (Option α) := fun c =>
  match p c with
  | .ok (a, c') => .ok (some a, c')
  | .error _ => .ok (none, c)

/-- Whether something could be read next, followed by what passes a test. -/
def wouldRead {α : Type} (p : Parser α) (follows : Cursor → Bool) : Parser Bool := fun c =>
  match p c with
  | .ok (_, c') => .ok (follows c', c)
  | .error _ => .ok (false, c)

/-! ### Repetition -/

/-- Reads items as long as there are any. -/
def collect {α : Type} (item : Parser (Option α)) : Nat → List α → Parser (List α)
  | 0, _ => wrong
  | n + 1, found => do
    match ← item with
    | some a => collect item n (a :: found)
    | none => pure found.reverse

/-- Passes as many of the given characters as there are. -/
def acceptAll (mark : List Char) : Nat → Parser Unit
  | 0 => pure ()
  | n + 1 => do
    if ← accept mark then acceptAll mark n

/-- Reads items with commas between them up to a closing mark, which is passed. A comma may stand
before the closing mark. -/
def commaListFrom {α : Type} (closer : List Char) (item : Parser α) :
    Nat → List α → Parser (List α)
  | 0, _ => wrong
  | n + 1, found => do
    if ← accept closer then pure found.reverse
    else
      let a ← item
      if ← accept [','] then commaListFrom closer item n (a :: found)
      else
        expect closer
        pure (a :: found).reverse

/-- Reads items with commas between them up to a closing mark. -/
def Grammar.commaList {α : Type} (g : Grammar) (closer : List Char) (item : Parser α) :
    Parser (List α) :=
  commaListFrom closer item g.fuel []

/-- Reads items like a list with commas, in which places may be empty. -/
def sparseListFrom (closer : List Char) (item : Parser Tree) : Nat → List Tree → Parser (List Tree)
  | 0, _ => wrong
  | n + 1, found => do
    if ← accept closer then pure found.reverse
    else if ← accept [','] then sparseListFrom closer item n found
    else
      let t ← item
      if ← accept [','] then sparseListFrom closer item n (t :: found)
      else
        expect closer
        pure (t :: found).reverse

/-- Reads items like a list with commas, in which places may be empty. -/
def Grammar.sparseList (g : Grammar) (closer : List Char) (item : Parser Tree) :
    Parser (List Tree) :=
  sparseListFrom closer item g.fuel []

/-! ### Ends of statements -/

/-- Passes the end of a statement: a semicolon, or nothing where a line, a block or the script
ends. -/
def endStatement : Parser Unit := do
  unless ← accept [';'] do
    let c ← get
    unless c.newline || c.isEnd || c.rest.head? == some '\x7d' do wrong

/-! ### Goals -/

namespace Grammar

def hasTypes (g : Grammar) : Bool := g.language.hasTypes

def expression (g : Grammar) : Parser Tree := g.parse (.expression false)

/-- An expression without commas. -/
def value (g : Grammar) : Parser Tree := g.parse (.assignment false false)

def type (g : Grammar) : Parser Tree := g.parse (.type false)

/-- A type behind a colon, if types may be written and there is one. -/
def optionalType (g : Grammar) : Parser Unit := do
  if g.hasTypes then
    if ← accept [':'] then discard g.type

/-- A value behind an equals sign, if there is one. -/
def initializer (g : Grammar) : Parser (List Tree) := do
  if ← accept ['='] then return [← g.value]
  else pure []

end Grammar

end CodeHealth.Script
