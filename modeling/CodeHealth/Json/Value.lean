import CodeHealth.Decimal.Notation

/-!
JSON values. Whole numbers and floating point numbers are kept apart, as the texts `1` and `1.0`
are; an object keeps its fields in order.
-/

namespace CodeHealth

inductive Json where
  | null
  | bool (b : Bool)
  | integer (n : Int)
  | float (x : Float)
  | string (s : String)
  | array (items : List Json)
  | object (fields : List (String × Json))
deriving Inhabited

namespace Json

/-- The value of a field; of equal names the last one counts. -/
def field? (name : String) : List (String × Json) → Option Json
  | [] => none
  | (k, v) :: rest => (field? name rest).or (if k = name then some v else none)

def get? (j : Json) (name : String) : Option Json :=
  match j with
  | .object fields => field? name fields
  | _ => none

def asString? : Json → Option String
  | .string s => some s
  | _ => none

def asArray? : Json → Option (List Json)
  | .array items => some items
  | _ => none

/-- The whole number that a value is, if it lies below the given bound. -/
def asNatBelow? (bound : Nat) : Json → Option Nat
  | .integer n => if 0 ≤ n ∧ n < bound then some n.toNat else none
  | _ => none

def asFloat? : Json → Option Float
  | .integer n => some (Float.ofInt n)
  | .float x => some x
  | _ => none

def asFloat32? : Json → Option Float32
  | .integer n => some (Float32.ofInt n)
  | .float x => some x.toFloat32
  | _ => none

def asBool? : Json → Option Bool
  | .bool b => some b
  | _ => none

def ofNat (n : Nat) : Json := .integer n

/-- The value of an optional part: nothing becomes `null`. -/
def ofOption {α : Type} (f : α → Json) : Option α → Json
  | some a => f a
  | none => .null

def strings (ss : List String) : Json := .array (ss.map .string)

end Json

end CodeHealth
