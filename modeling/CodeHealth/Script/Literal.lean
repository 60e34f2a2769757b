import CodeHealth.Script.Word

/-!
Literals of scripts: how many characters they take at the front of a text.
-/

namespace CodeHealth.Script

open Text

/-- The number of characters at the front of a text that belong to a class, low lines included. -/
def digitsLength (isDigit : Char → Bool) (cs : List Char) : Nat :=
  (cs.takeWhile fun c => isDigit c || c == '_').length

/-- The length of an exponent at the front of a text, or zero. -/
def exponentLength : List Char → Nat
  | e :: cs =>
    if e = 'e' ∨ e = 'E' then
      let sign := match cs with
        | '+' :: _ => 1
        | '-' :: _ => 1
        | _ => 0
      match digitsLength Char.isDigit (cs.drop sign) with
      | 0 => 0
      | n => 1 + sign + n
    else 0
  | [] => 0

/-- The length of a fraction and an exponent at the front of a text. -/
def fractionLength : List Char → Nat
  | '.' :: cs =>
    let n := digitsLength Char.isDigit cs
    1 + n + exponentLength (cs.drop n)
  | cs => exponentLength cs

/-- The digits that a letter behind a leading zero announces. -/
def radixDigits? (c : Char) : Option (Char → Bool) :=
  if c = 'x' ∨ c = 'X' then some isHexDigit
  else if c = 'o' ∨ c = 'O' then some fun d => '0' ≤ d && d ≤ '7'
  else if c = 'b' ∨ c = 'B' then some fun d => d == '0' || d == '1'
  else none

/-- The number of letters `n` at the front of a text that mark a whole number: none or one. -/
def bigMark : List Char → Nat
  | 'n' :: _ => 1
  | _ => 0

/-- The length of a number at the front of a text, which starts with a digit or a point. -/
def numberLength (cs : List Char) : Nat :=
  match cs, (cs.drop 1).head?.bind radixDigits? with
  | '0' :: _, some isDigit =>
    let n := 2 + digitsLength isDigit (cs.drop 2)
    n + bigMark (cs.drop n)
  | _, _ =>
    let n := digitsLength Char.isDigit cs
    match bigMark (cs.drop n) with
    | 0 => n + fractionLength (cs.drop n)
    | m => n + m

/-- The length of a string up to its closing quote, that one included. Lines do not end inside of
strings unless a backslash stands before; the first `skip` characters are escaped. -/
def stringLengthFrom (quote : Char) : Nat → List Char → Option Nat
  | _, [] => none
  | skip + 1, _ :: cs => (stringLengthFrom quote skip cs).map (· + 1)
  | 0, '\\' :: '\r' :: '\n' :: cs => (stringLengthFrom quote 2 ('\r' :: '\n' :: cs)).map (· + 1)
  | 0, c :: cs =>
    if c = quote then some 1
    else if c = '\\' then (stringLengthFrom quote 1 cs).map (· + 1)
    else if c = '\n' ∨ c = '\r' then none
    else (stringLengthFrom quote 0 cs).map (· + 1)

/-- The length of the string that a text starts with. -/
def stringLength? : List Char → Option Nat
  | [] => none
  | quote :: cs => (stringLengthFrom quote 0 cs).map (· + 1)

/-- The length of a text in quotes in which every character stands for itself. -/
def plainStringLength? : List Char → Option Nat
  | [] => none
  | quote :: cs =>
    let n := (cs.takeWhile (· != quote)).length
    if n < cs.length then some (n + 2) else none

/-- The length of a regular expression up to its closing slash, that one included. In square
brackets a slash does not close it; `escaped` says whether the character before is a backslash. -/
def regexLengthFrom (inClass escaped : Bool) : List Char → Option Nat
  | [] => none
  | c :: cs =>
    if c = '\n' then none
    else if escaped then (regexLengthFrom inClass false cs).map (· + 1)
    else if c = '\\' then (regexLengthFrom inClass true cs).map (· + 1)
    else if inClass then (regexLengthFrom (c != ']') false cs).map (· + 1)
    else if c = '[' then (regexLengthFrom true false cs).map (· + 1)
    else if c = '/' then some 1
    else (regexLengthFrom false false cs).map (· + 1)

/-- The length of the regular expression with its flags that a text starts with. It is not empty,
and does not look like a comment. -/
def regexLength? : List Char → Option Nat
  | '/' :: c :: cs =>
    if c = '/' ∨ c = '*' then none
    else (regexLengthFrom false false (c :: cs)).map fun n =>
      1 + n + ((cs.drop (n - 1)).takeWhile fun d => 'a' ≤ d && d ≤ 'z').length
  | _ => none

/-- What ends a stretch of text in a template. -/
inductive ChunkEnd where
  | quote
  | substitution
deriving DecidableEq, Repr

/-- The length of a stretch of text in a template up to what ends it, and what that is. -/
def chunkLengthFrom (escaped : Bool) : List Char → Option (Nat × ChunkEnd)
  | [] => none
  | c :: cs =>
    if escaped then (chunkLengthFrom false cs).map fun (n, e) => (n + 1, e)
    else if c = '`' then some (0, .quote)
    else if c = '$' ∧ cs.head? = some '\x7b' then some (0, .substitution)
    else (chunkLengthFrom (c == '\\') cs).map fun (n, e) => (n + 1, e)

/-- The length of the stretch of text in a template that a text starts with. -/
def chunkLength? (cs : List Char) : Option (Nat × ChunkEnd) := chunkLengthFrom false cs

end CodeHealth.Script
