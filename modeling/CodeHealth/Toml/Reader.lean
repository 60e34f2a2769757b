import CodeHealth.Toml.Scan
import CodeHealth.Toml.Table

/-!
Reading of configuration texts in TOML. A text is read as a table of values; a text with a fault
anywhere is read as nothing.
-/

namespace CodeHealth.Toml

/-- The number of arrays and inline tables that may be open, and of parts of a dotted name. -/
def depthLimit : Nat := 79

/-! ### Names -/

/-- A character of a name without quotes. -/
def isBareKeyChar (c : Char) : Bool := c.isAlphanum || c == '_' || c == '-'

def readKeyPart? (cs : List Char) : Option (String × List Char) :=
  match cs with
  | '"' :: rest => (readBasic 0 rest).map fun (ds, r) => (String.ofList ds, r)
  | '\'' :: rest => (readLiteral rest).map fun (ds, r) => (String.ofList ds, r)
  | _ =>
    let (ds, rest) := cs.span isBareKeyChar
    if ds.isEmpty then none else some (String.ofList ds, rest)

/-- Reads the parts of a name between dots, and the blanks around them. -/
def readKeyParts? : Nat → List Char → Option (List String × List Char)
  | 0, _ => none
  | fuel + 1, cs => do
    let (part, rest) ← readKeyPart? (skipIndent cs)
    match skipIndent rest with
    | '.' :: r =>
      let (parts, r) ← readKeyParts? fuel r
      pure (part :: parts, r)
    | r => pure ([part], r)

/-- Reads a name: the parts that lead to it and the last part. -/
def readKey? (cs : List Char) : Option ((List String × String) × List Char) := do
  let (parts, rest) ← readKeyParts? depthLimit cs
  pure ((parts.dropLast, ← parts.getLast?), rest)

/-! ### Values -/

mutual

def readValue : Nat → Nat → List Char → Option (Json × List Char)
  | 0, _, _ => none
  | fuel + 1, depth, cs =>
    match cs with
    | [] => none
    | '[' :: rest =>
      if depth = 0 then none
      else do
        let (items, r) ← readItems fuel (depth - 1) (skipGaps false rest)
        pure (.array items, r)
    | '\x7b' :: rest =>
      if depth = 0 then none
      else do
        let (entries, r) ← readPairs fuel (depth - 1) true [] (skipIndent rest)
        pure (.object (fieldsOf entries), r)
    | 't' :: 'r' :: 'u' :: 'e' :: rest => some (.bool true, rest)
    | 'f' :: 'a' :: 'l' :: 's' :: 'e' :: rest => some (.bool false, rest)
    | c :: _ =>
      if c = '"' ∨ c = '\'' then (readString? cs).map fun (s, r) => (.string s, r)
      else if startsMoment cs then readMoment? cs
      else readNumber? cs

/-- Reads the items of an array up to its end. A comma may follow the last one. -/
def readItems : Nat → Nat → List Char → Option (List Json × List Char)
  | 0, _, _ => none
  | fuel + 1, depth, cs =>
    match cs with
    | ']' :: rest => some ([], rest)
    | _ => do
      let (j, rest) ← readValue fuel depth cs
      match skipGaps false rest with
      | ',' :: r =>
        let (js, r) ← readItems fuel depth (skipGaps false r)
        pure (j :: js, r)
      | ']' :: r => pure ([j], r)
      | _ => none

/-- Reads the entries of an inline table up to its end. -/
def readPairs : Nat → Nat → Bool → Entries → List Char → Option (Entries × List Char)
  | 0, _, _, _, _ => none
  | fuel + 1, depth, first, entries, cs =>
    match cs with
    | '\x7d' :: rest => if first then some (entries, rest) else none
    | _ => do
      let ((way, name), rest) ← readKey? cs
      match rest with
      | '=' :: r =>
        let (j, r) ← readValue fuel depth (skipIndent r)
        let entries ← Entries.addDotted? name j way entries
        match skipIndent r with
        | ',' :: r => readPairs fuel depth false entries (skipIndent r)
        | '\x7d' :: r => pure (entries, r)
        | _ => none
      | _ => none

end

/-! ### Documents -/

/-- Reads the rest of a header and opens its table. -/
def readHeader? (d : Draft) (cs : List Char) : Option (Draft × List Char) :=
  match cs with
  | '[' :: rest => do
    let ((way, name), rest) ← readKey? rest
    match rest with
    | ']' :: ']' :: r => pure (← d.openInList? way name, ← endLine? r)
    | _ => none
  | _ => do
    let ((way, name), rest) ← readKey? cs
    match rest with
    | ']' :: r => pure (← d.openTable? way name, ← endLine? r)
    | _ => none

/-- Reads a line with a name and a value. -/
def readEntry? (d : Draft) (cs : List Char) : Option (Draft × List Char) := do
  let ((way, name), rest) ← readKey? cs
  match rest with
  | '=' :: r =>
    let (j, r) ← readValue (2 * r.length + 2) depthLimit (skipIndent r)
    pure (← d.add? way name j, ← endLine? r)
  | _ => none

def readLines? : Nat → Draft → List Char → Option Draft
  | 0, _, _ => none
  | fuel + 1, d, cs =>
    match skipIndent cs with
    | [] => some d
    | '[' :: rest => do
      let (d, rest) ← readHeader? d rest
      readLines? fuel d rest
    | c :: rest =>
      if c = '#' ∨ c = '\n' ∨ c = '\r' then do
        readLines? fuel d (← endLine? (c :: rest))
      else do
        let (d, rest) ← readEntry? d (c :: rest)
        readLines? fuel d rest

/-- The table of values that a text stands for. -/
def read? (text : String) : Option Json := do
  let cs := match text.toList with
    | '\uFEFF' :: rest => rest
    | cs => cs
  let d ← readLines? (cs.length + 1) .start cs
  pure (.object (fieldsOf (← d.close?)))

end CodeHealth.Toml
