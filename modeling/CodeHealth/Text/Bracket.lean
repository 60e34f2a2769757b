import CodeHealth.Text.Checked

/-!
Matching brackets. Only the kind of the opening bracket counts: between round brackets, square and
curly ones are text like any other. Brackets are sought among bytes.
-/

namespace CodeHealth.Text

/-- The byte of the closing bracket of an opening one. -/
def closerByte? (b : UInt8) : Option UInt8 :=
  if b = '('.toUInt8 then some ')'.toUInt8
  else if b = '['.toUInt8 then some ']'.toUInt8
  else if b = '\x7b'.toUInt8 then some '\x7d'.toUInt8
  else none

/-- The offset of the byte that brings `depth` open brackets down to none, where the bytes start at
an offset. -/
def closeFrom (opener closer : UInt8) : Nat → Nat → List UInt8 → Checked (Option Nat)
  | _, _, [] => pure none
  | depth, offset, b :: bs =>
    if b = opener then closeFrom opener closer (depth + 1) (offset + 1) bs
    else if b = closer then do
      let left ← minus depth 1
      if left = 0 then pure (some offset) else closeFrom opener closer left (offset + 1) bs
    else closeFrom opener closer depth (offset + 1) bs

/-- The byte offset of the bracket that closes the one at the byte offset `opening`. -/
def closeOf (text : List Char) (opening : Nat) : Checked (Option Nat) :=
  match (bytes text)[opening]? with
  | none => pure none
  | some opener =>
    match closerByte? opener with
    | some closer => closeFrom opener closer 0 opening ((bytes text).drop opening)
    | none => pure none

end CodeHealth.Text
