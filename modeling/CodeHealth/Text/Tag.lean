import CodeHealth.Text.Occurrence

/-!
Opening tags of markup in masked text: where a tag ends, and which attributes it has. A tag may
hold expressions in braces, and a `>` inside braces does not end it.
-/

namespace CodeHealth.Text

/-- The number of characters up to the first `>` outside braces, that one included. A closing brace
without a partner is ignored. -/
def tagEnd : Nat → List Char → Option Nat
  | _, [] => none
  | depth, c :: cs =>
    if c = '{' then (tagEnd (depth + 1) cs).map (· + 1)
    else if c = '}' then (tagEnd (depth - 1) cs).map (· + 1)
    else if c = '>' ∧ depth = 0 then some 1
    else (tagEnd depth cs).map (· + 1)

/-- The length in characters of the tag that a text starts with; its first character never ends
it. -/
def tagLength : List Char → Option Nat
  | [] => none
  | c :: cs => (tagEnd (if c = '{' then 1 else 0) cs).map (· + 1)

/-- The byte offset behind the tag that starts at the byte offset `start`. -/
def tagExtent (text : List Char) (start : Nat) : Option Nat :=
  match splitAtByte start text with
  | some (_, rest) => (tagLength rest).map fun n => start + byteLength (rest.take n)
  | none => none

/-- What may follow the name of an attribute: blanks, and then an equals sign or the end of the
tag. -/
def followsName (rest : List Char) : Bool :=
  match rest.dropWhile isBlank with
  | c :: _ => c == '=' || c == '/' || c == '>'
  | [] => false

/-- Whether the word at a byte offset of a tag is the name of an attribute: a blank or nothing
stands before it, and what may follow a name behind it. -/
def isNameAt (tag name : List Char) (i : Nat) : Checked Bool := do
  let separated ←
    if i = 0 then pure true else isAsciiBlankByte <$> (minus i 1 >>= readAt (bytes tag))
  let rest ← sliceFrom (i + byteLength name) tag
  pure (separated && followsName rest)

/-- Whether an attribute called `name` appears in the text of a tag. -/
def findsAttribute (tag name : List Char) : Checked Bool :=
  (offsetsOf name tag).anyM (isNameAt tag name)

/-- Whether `part` stands somewhere in a text. -/
def contains (part : List Char) : List Char → Bool
  | [] => part.isEmpty
  | c :: cs => part.isPrefixOf (c :: cs) || contains part cs

/-- Whether a tag spreads the properties of an object, which may supply any attribute. -/
def hasSpread (tag : List Char) : Bool := contains "\x7b...".toList tag

end CodeHealth.Text
