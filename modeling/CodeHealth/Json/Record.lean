import CodeHealth.Json.Value

/-!
Records in JSON. A record is an object with named fields, or a list of the fields' values in order.
-/

namespace CodeHealth.Json

/-- The fields of a record. Those that are named in `defaulted` may be missing from a list. -/
def record? (names defaulted : List String) : Json → Option (List (String × Json))
  | .object fields => some fields
  | .array items =>
    if items.length ≤ names.length ∧
        (names.drop items.length).all fun n => defaulted.contains n then
      some (names.zip items)
    else none
  | _ => none

def required? {α : Type} (decode : Json → Option α) (fields : List (String × Json))
    (name : String) : Option α :=
  (field? name fields).bind decode

/-- A field that may be missing or `null`. -/
def optional? {α : Type} (decode : Json → Option α) (fields : List (String × Json))
    (name : String) : Option (Option α) :=
  match field? name fields with
  | none => some none
  | some .null => some none
  | some j => (decode j).map some

/-- A field that may be missing, but not `null`. -/
def defaulted? {α : Type} (decode : Json → Option α) (default : α)
    (fields : List (String × Json)) (name : String) : Option α :=
  match field? name fields with
  | none => some default
  | some j => decode j

def list? {α : Type} (decode : Json → Option α) : Json → Option (List α)
  | .array items => items.mapM decode
  | _ => none

/-- A table of values; of equal names the last one counts. -/
def table? {α : Type} (decode : Json → Option α) : Json → Option (List (String × α))
  | .object fields => fields.mapM fun (k, j) => (decode j).map (k, ·)
  | _ => none

/-- A name that stands for a value: a string, or an object with the name alone. -/
def name? : Json → Option String
  | .string s => some s
  | .object [(s, .null)] => some s
  | _ => none

end CodeHealth.Json
