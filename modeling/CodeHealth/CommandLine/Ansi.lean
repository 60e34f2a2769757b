/-!
Colours of a terminal. A colour is a code around a text; the codes can be taken out again.
-/

namespace CodeHealth.Ansi

inductive Style where
  | bold
  | dim
  | red
  | green
  | yellow
  | cyan
deriving DecidableEq, Repr

def Style.number : Style → String
  | .bold => "1"
  | .dim => "2"
  | .red => "31"
  | .green => "32"
  | .yellow => "33"
  | .cyan => "36"

def paint (colours : Bool) (style : Style) (text : String) : String :=
  if colours then "\x1b[" ++ style.number ++ "m" ++ text ++ "\x1b[0m" else text

/-! ### Taking codes out -/

/-- How much of a code behind its first character has been read. -/
inductive State where
  | opened
  /-- A parenthesis, which may name a character set. -/
  | bracket
  | marks
  /-- So many digits of a number. -/
  | digits (count : Nat)
  | separator
  | closed
deriving DecidableEq, Repr

namespace State

/-- Whether a code may end here. -/
def isFinal : State → Bool
  | .digits _ => true
  | .closed => true
  | _ => false

/-- Whether a letter can end a code. -/
def isFinalLetter (c : Char) : Bool :=
  ('A' ≤ c && c ≤ 'P') || ('f' ≤ c && c ≤ 'n') ||
    ['R', 'Z', 'c', 'q', 'r', 'y', '=', '>', '<'].contains c

/-- Whether no digit of a code has been read. -/
def isEarly : State → Bool
  | .opened => true
  | .bracket => true
  | .marks => true
  | _ => false

/-- What has been read with one more digit. Four digits make a number; one more ends the code. -/
def nextDigit? (s : State) (c : Char) : Option State :=
  match s with
  | .opened => some (.digits 1)
  | .marks => some (.digits 1)
  | .separator => some (.digits 1)
  | .bracket => some (if c ≤ '2' then .closed else .digits 1)
  | .digits n => if n < 4 then some (.digits (n + 1)) else if n = 4 then some .closed else none
  | .closed => none

/-- What has been read with one more character, if a code can go on with it. -/
def next? (s : State) (c : Char) : Option State :=
  if c = '(' ∨ c = ')' then
    if s = .opened then some .bracket else if s.isEarly then some .marks else none
  else if c = '[' ∨ c = '#' ∨ c = '?' then
    if s.isEarly then some .marks else none
  else if c = ';' then
    if s.isEarly then some .marks else if s = .closed then none else some .separator
  else if c.isDigit then s.nextDigit? c
  else if isFinalLetter c then
    if s = .closed then none else some .closed
  else none

end State

/-- The number of characters of the longest code that goes on from a state, `read` characters of
which have been read; `longest` is the longest so far. -/
def codeLength (s : State) (read longest : Nat) : List Char → Nat
  | [] => longest
  | c :: cs =>
    match s.next? c with
    | none => longest
    | some s => codeLength s (read + 1) (if s.isFinal then read + 1 else longest) cs

def opensCode (c : Char) : Bool := c == '\x1b' || c == '\u009b'

/-- The text without codes; the first `skip` characters belong to a code. -/
def dropCodes : Nat → List Char → List Char
  | _, [] => []
  | skip + 1, _ :: cs => dropCodes skip cs
  | 0, c :: cs =>
    if opensCode c then
      match codeLength .opened 0 0 cs with
      | 0 => c :: dropCodes 0 cs
      | n => dropCodes n cs
    else c :: dropCodes 0 cs

def strip (text : String) : String := String.ofList (dropCodes 0 text.toList)

end CodeHealth.Ansi
