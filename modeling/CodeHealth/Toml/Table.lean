import CodeHealth.Json.Value

/-!
Tables while a configuration text is read. A table can be written in pieces, but a piece can add
only to what the pieces before it left open: how a table came to be settles what may still be added.
-/

namespace CodeHealth.Toml

inductive Origin where
  /-- It has a header of its own. -/
  | header
  /-- A header of an inner table names it. -/
  | implied
  /-- A dotted name goes through it. -/
  | dotted
deriving DecidableEq, Repr

/-- What stands under a name. -/
inductive Item where
  /-- A value, to which nothing is added. -/
  | value (j : Json)
  | table (origin : Origin) (entries : List (String × Item))
  /-- A list of tables, each with a header: the latest one and the earlier ones, latest first. -/
  | tables (latest : List (String × Item)) (earlier : List Json)

/-- The entries of a table, in the order in which they came. -/
abbrev Entries := List (String × Item)

mutual

def Item.toJson : Item → Json
  | .value j => j
  | .table _ entries => .object (fieldsOf entries)
  | .tables latest earlier => .array (earlier.reverse ++ [.object (fieldsOf latest)])

def fieldsOf : List (String × Item) → List (String × Json)
  | [] => []
  | (name, item) :: rest => (name, item.toJson) :: fieldsOf rest

end

namespace Entries

def set (name : String) (item : Item) : Entries → Entries
  | [] => [(name, item)]
  | (n, i) :: rest => if n = name then (n, item) :: rest else (n, i) :: set name item rest

def remove (name : String) (es : Entries) : Entries := es.filter (·.1 != name)

/-- The entries with a value under a new name. -/
def add? (name : String) (j : Json) (es : Entries) : Option Entries :=
  if (es.lookup name).isSome then none else some (es ++ [(name, .value j)])

/-- The entries with a value under a new name, which is reached through the given names. The tables
on the way are made as needed; the last one has to be made by such names alone. -/
def addDotted? (name : String) (j : Json) : List String → Entries → Option Entries
  | [], es => add? name j es
  | n :: ns, es =>
    match es.lookup n with
    | none => (addDotted? name j ns []).map fun inner => set n (.table .dotted inner) es
    | some (.value _) => none
    | some (.table origin inner) =>
      if origin = .header ∨ (ns.isEmpty ∧ origin ≠ .dotted) then none
      else (addDotted? name j ns inner).map fun inner => set n (.table origin inner) es
    | some (.tables latest earlier) =>
      if ns.isEmpty then none
      else (addDotted? name j ns latest).map fun latest => set n (.tables latest earlier) es

/-- The entries with a change in the table that is reached through the given names. A list of
tables stands for its latest one. -/
def change? (f : Entries → Option Entries) : List String → Entries → Option Entries
  | [], es => f es
  | n :: ns, es =>
    match es.lookup n with
    | none => (change? f ns []).map fun inner => set n (.table .implied inner) es
    | some (.value _) => none
    | some (.table origin inner) =>
      (change? f ns inner).map fun inner => set n (.table origin inner) es
    | some (.tables latest earlier) =>
      (change? f ns latest).map fun latest => set n (.tables latest earlier) es

/-- The table that is reached through the given names. -/
def find? : List String → Entries → Option Entries
  | [], es => some es
  | n :: ns, es =>
    match es.lookup n with
    | some (.table _ inner) => find? ns inner
    | some (.tables latest _) => find? ns latest
    | _ => none

end Entries

/-- A text that is being read: the tables that are complete, and the one whose header came last. -/
structure Draft where
  complete : Entries
  /-- The header: the names that lead to the table and its own name; nothing at the start. -/
  header : Option (List String × String)
  /-- Whether the header adds a table to a list. -/
  inList : Bool
  entries : Entries

namespace Draft

/-- Nothing read yet. -/
def start : Draft := ⟨[], none, false, []⟩

/-- The complete tables with the current one among them. -/
def close? (d : Draft) : Option Entries :=
  match d.header with
  | none => some d.entries
  | some (way, name) =>
    Entries.change? (fun es =>
      if d.inList then
        match es.lookup name with
        | none => some (es ++ [(name, .tables d.entries [])])
        | some (.tables latest earlier) =>
          some (Entries.set name (.tables d.entries (.object (fieldsOf latest) :: earlier)) es)
        | some _ => none
      else some (es ++ [(name, .table .header d.entries)])) way d.complete

/-- The draft behind the header of a table. A table that only inner headers named goes on. -/
def openTable? (d : Draft) (way : List String) (name : String) : Option Draft := do
  let complete ← Entries.change? some way (← d.close?)
  match (Entries.find? way complete).bind (·.lookup name) with
  | none => pure ⟨complete, some (way, name), false, []⟩
  | some (.table .implied inner) =>
    let rest ← Entries.change? (fun es => some (Entries.remove name es)) way complete
    pure ⟨rest, some (way, name), false, inner⟩
  | some _ => none

/-- The draft behind the header of a table in a list. -/
def openInList? (d : Draft) (way : List String) (name : String) : Option Draft := do
  let complete ← Entries.change? some way (← d.close?)
  match (Entries.find? way complete).bind (·.lookup name) with
  | none => pure ⟨complete, some (way, name), true, []⟩
  | some (.tables ..) => pure ⟨complete, some (way, name), true, []⟩
  | some _ => none

def add? (d : Draft) (way : List String) (name : String) (j : Json) : Option Draft :=
  (Entries.addDotted? name j way d.entries).map fun es => { d with entries := es }

end Draft

end CodeHealth.Toml
