import CodeHealth.Text.ClassTables

/-!
Classes of characters. A class is a property of the Unicode standard; the ASCII characters are
decided without a table.
-/

namespace CodeHealth.Text

/-- Membership in ascending closed ranges. -/
def inRanges : List (Nat × Nat) → Nat → Bool
  | [], _ => false
  | (lo, hi) :: rest, n => if n < lo then false else if n ≤ hi then true else inRanges rest n

/-- White space: the property White_Space. -/
def isBlank (c : Char) : Bool := inRanges ClassTables.whiteSpace c.toNat

/-- The blanks of ASCII that separate words in markup: space, tab, line feed, form feed and
carriage return. -/
def isAsciiBlank (c : Char) : Bool :=
  c == ' ' || c == '\t' || c == '\n' || c == '\x0c' || c == '\r'

/-- The bytes of the blanks of ASCII. -/
def isAsciiBlankByte (b : UInt8) : Bool :=
  b == ' '.toUInt8 || b == '\t'.toUInt8 || b == '\n'.toUInt8 || b == '\x0c'.toUInt8 ||
    b == '\r'.toUInt8

def isDecimalDigit (c : Char) : Bool :=
  if c.toNat < 0x80 then c.isDigit else inRanges ClassTables.decimalDigit c.toNat

/-- A letter or a number of any script. -/
def isAlphanumeric (c : Char) : Bool :=
  if c.toNat < 0x80 then c.isAlphanum
  else inRanges ClassTables.alphabetic c.toNat || inRanges ClassTables.decimalDigit c.toNat ||
    inRanges ClassTables.otherNumeric c.toNat

/-- A word character: a letter, a mark, a decimal digit, connecting punctuation such as the low
line, or a joiner. -/
def isWordChar (c : Char) : Bool :=
  if c.toNat < 0x80 then c.isAlphanum || c == '_'
  else inRanges ClassTables.alphabetic c.toNat || inRanges ClassTables.decimalDigit c.toNat ||
    inRanges ClassTables.wordMark c.toNat

/-- A character of an identifier of a script: a letter, a number, the low line or the dollar. -/
def isNameChar (c : Char) : Bool := isAlphanumeric c || c == '_' || c == '$'

def isCapital (c : Char) : Bool := 'A' ≤ c && c ≤ 'Z'

def isAsciiLetter (c : Char) : Bool := isCapital c || ('a' ≤ c && c ≤ 'z')

/-- A blank that does not end a line: space or tab. -/
def isIndent (c : Char) : Bool := c == ' ' || c == '\t'

end CodeHealth.Text
