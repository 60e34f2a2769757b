import CodeHealth.Script.Cursor

/-!
Words of scripts: names and keywords.
-/

namespace CodeHealth.Script

/-- Whether a character may stand in a word: of ASCII the letters, the digits and two marks, of the
rest everything that does not part tokens. -/
def isWordPart (c : Char) : Bool :=
  if c.toNat < 0x80 then c.isAlphanum || c == '_' || c == '$' || c == '\x7f'
  else !isGap c

def isWordStart (c : Char) : Bool := isWordPart c && !c.isDigit

def isHexDigit (c : Char) : Bool :=
  c.isDigit || ('a' ≤ c && c ≤ 'f') || ('A' ≤ c && c ≤ 'F')

/-- The length of the escape of a character that a text starts with, or zero. -/
def escapeLength : List Char → Nat
  | '\\' :: 'u' :: '\x7b' :: cs =>
    let digits := cs.takeWhile isHexDigit
    if !digits.isEmpty && (cs.drop digits.length).head? == some '\x7d' then digits.length + 4 else 0
  | '\\' :: 'u' :: cs =>
    if (cs.take 4).length = 4 ∧ (cs.take 4).all isHexDigit then 6 else 0
  | _ => 0

/-- The length of the word that goes on at the front of a text; the first `skip` characters belong
to an escape. -/
def wordLengthFrom : Nat → List Char → Nat
  | _, [] => 0
  | skip + 1, _ :: cs => 1 + wordLengthFrom skip cs
  | 0, c :: cs =>
    if isWordPart c then 1 + wordLengthFrom 0 cs
    else match escapeLength (c :: cs) with
      | 0 => 0
      | n + 1 => 1 + wordLengthFrom n cs

/-- The length of the word that a text starts with, or zero. -/
def wordLength : List Char → Nat
  | [] => 0
  | c :: cs => if c.isDigit then 0 else wordLengthFrom 0 (c :: cs)

/-- The word at a cursor, or nothing as text. -/
def Cursor.word (c : Cursor) : String := String.ofList (c.rest.take (wordLength c.rest))

def reservedWords : List String :=
  ["break", "case", "catch", "class", "const", "continue", "debugger", "default", "delete", "do",
    "else", "enum", "export", "extends", "false", "finally", "for", "function", "if", "import",
    "in", "instanceof", "new", "null", "return", "super", "switch", "this", "throw", "true", "try",
    "typeof", "var", "void", "while", "with"]

/-- Whether a word may be the name of a variable. -/
def isName (w : String) : Bool := !w.isEmpty && !reservedWords.contains w

end CodeHealth.Script
