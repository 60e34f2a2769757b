import CodeHealth.Text.Utf8

/-!
Computations that can fault. A text is cut between two of its characters only, an index has to be in
range, and numbers have their bounds; where that is not so, a computation stops with a fault.
-/

namespace CodeHealth.Text

/-- Why a computation stopped. -/
inductive Fault where
  /-- A text was to be cut inside a character or behind its end. -/
  | cut (offset : Nat)
  /-- A slice was to end before it starts. -/
  | slice (start stop : Nat)
  | index (i length : Nat)
  | sum
  | difference
deriving DecidableEq, Repr

/-- The text of a fault, without the text that was to be cut. -/
def Fault.message : Fault → String
  | .cut offset => "byte index " ++ toString offset ++ " is not a char boundary"
  | .slice start stop => "begin <= end (" ++ toString start ++ " <= " ++ toString stop ++ ")"
  | .index i length =>
    "index out of bounds: the len is " ++ toString length ++ " but the index is " ++ toString i
  | .sum => "attempt to add with overflow"
  | .difference => "attempt to subtract with overflow"

/-- A value, or the fault that kept it from being computed. -/
abbrev Checked (α : Type) := Except Fault α

/-- The text before a byte offset. -/
def sliceTo (offset : Nat) (text : List Char) : Checked (List Char) :=
  match splitAtByte offset text with
  | some (before, _) => .ok before
  | none => .error (.cut offset)

/-- The text behind a byte offset. -/
def sliceFrom (offset : Nat) (text : List Char) : Checked (List Char) :=
  match splitAtByte offset text with
  | some (_, behind) => .ok behind
  | none => .error (.cut offset)

/-- The text between two byte offsets. -/
def slice (start stop : Nat) (text : List Char) : Checked (List Char) :=
  if stop < start then .error (.slice start stop) else sliceTo stop text >>= sliceFrom start

def readAt {α : Type} (xs : List α) (i : Nat) : Checked α :=
  match xs[i]? with
  | some x => .ok x
  | none => .error (.index i xs.length)

/-- The difference of two numbers without a sign. -/
def minus (a b : Nat) : Checked Nat := if b ≤ a then .ok (a - b) else .error .difference

/-! ### Cuts between characters -/

/-- The byte offset of the character with an index. -/
def offsetAt (text : List Char) (i : Nat) : Nat := byteLength (text.take i)

theorem splitAtByte_offsetAt (text : List Char) (i : Nat) :
    splitAtByte (offsetAt text i) text = some (text.take i, text.drop i) := by
  have h := splitAtByte_byteLength (text.take i) (text.drop i)
  rwa [List.take_append_drop] at h

@[simp] theorem sliceTo_offsetAt (text : List Char) (i : Nat) :
    sliceTo (offsetAt text i) text = .ok (text.take i) := by
  rw [sliceTo, splitAtByte_offsetAt]

theorem minus_of_le {a b : Nat} (h : b ≤ a) : minus a b = .ok (a - b) := if_pos h

end CodeHealth.Text
