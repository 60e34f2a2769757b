import CodeHealth.Check.Basic
import CodeHealth.Rule.Catalog

/-!
Loose comparisons. An operator `==` or `!=` is loose if it is not part of a longer operator. A
comparison with the word `null` is a common idiom and passes unless the options say otherwise.
-/

namespace CodeHealth.Check

open Text

/-- Whether a byte before `==` or `!=` makes it part of another operator. -/
def joinsOperator (b : UInt8) : Bool :=
  b == '='.toUInt8 || b == '!'.toUInt8 || b == '<'.toUInt8 || b == '>'.toUInt8

/-- Whether nothing joins an operator at an index of the bytes of a line from before. -/
def isFreeAt (bs : List UInt8) (i : Nat) : Checked Bool :=
  if i = 0 then pure true else (!joinsOperator ·) <$> (minus i 1 >>= readAt bs)

/-- Whether a loose operator stands at an index of the bytes of a line, where two bytes follow. -/
def isLooseAt (bs : List UInt8) (i : Nat) : Checked Bool := do
  let first ← readAt bs i
  let second ← readAt bs (i + 1)
  let isOperator := (first == '='.toUInt8 || first == '!'.toUInt8) && second == '='.toUInt8
  let isFree ← isFreeAt bs i
  pure (isOperator && isFree && bs[i + 2]? != some '='.toUInt8)

/-- The offsets of the loose operators among the bytes of a line, from an index on and in a number
of steps. An operator is two bytes long. -/
def looseFrom (bs : List UInt8) : Nat → Nat → Checked (List Nat)
  | 0, _ => pure []
  | steps + 1, i =>
    if i + 1 < bs.length then do
      if ← isLooseAt bs i then return i :: (← looseFrom bs steps (i + 2))
      else looseFrom bs steps (i + 1)
    else pure []

/-- The byte offsets of the loose operators of a line. No byte is looked at twice. -/
def looseOperators (line : List Char) : Checked (List Nat) :=
  looseFrom (bytes line) (bytes line).length 0

def nullWord : List Char := "null".toList

/-- Whether a text starts with the word `null`. -/
def startsWithNull (cs : List Char) : Bool :=
  match afterWord? nullWord cs with
  | some rest => !rest.head?.any isNameChar
  | none => false

/-- Whether a text ends with the word `null`. -/
def endsWithNull (cs : List Char) : Checked Bool := do
  if nullWord.isSuffixOf cs then
    let before ← sliceTo (← minus (byteLength cs) (byteLength nullWord)) cs
    pure (!before.getLast?.any isNameChar)
  else pure false

/-- Whether the operator at a byte offset of a line compares with the word `null`. -/
def comparesNull (line : List Char) (i : Nat) : Checked Bool := do
  let right ← sliceFrom (i + 2) line
  let left ← sliceTo i line
  if startsWithNull (skipBlanks right) then pure true else endsWithNull (trimRight left)

/-- The hit for the operator at a byte offset of a line. -/
def looseHit? (allowNull : Bool) (n : Nat) (line : List Char) (i : Nat) : Checked (Option Hit) := do
  if ← (if allowNull then comparesNull line i else pure false) then return none
  let op := String.ofList (← slice i (i + 2) line)
  let strict := if op = "==" then "===" else "!=="
  pure (some (.at ⟨n, columnAt line i⟩ ("Use '" ++ strict ++ "' instead of '" ++ op ++ "'")
    ("Replace '" ++ op ++ "' with '" ++ strict ++ "' to avoid type coercion")))

def looseEquality : Checker where
  ruleId := Rule.looseEquality.id
  appliesTo := Path.isScript
  check src :=
    let allowNull := src.options.boolOr "allow_null" true
    .ofChecked <| (numberedLines src.masked).flatMapM fun (n, line) => do
      (← looseOperators line).filterMapM (looseHit? allowNull n line)

end CodeHealth.Check
