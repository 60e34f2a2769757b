import CodeHealth.Json.Scan

/-!
Strict reading of JSON. A text is read as a value of a given shape: any value, or the parts of a
record that are of interest. Parts that are not needed are skipped and checked for their outline
alone. Containers may be nested 127 levels deep; what is skipped may be nested at will.
-/

namespace CodeHealth.Json

inductive Shape where
  /-- Any value. -/
  | any
  /-- A value that is skipped. -/
  | ignored
  /-- A string. -/
  | string
  /-- A value of the shape, or `null`. -/
  | optional (shape : Shape)
  /-- A list of values of one shape. -/
  | list (shape : Shape)
  /-- A table of values of one shape. -/
  | table (shape : Shape)
  /-- The fields of a record, each with its name, whether it has to be there, and its shape. Other
  fields are skipped. A list of the fields' values in order is a record, too. -/
  | record (name : String) (fields : List (String × Bool × Shape))
deriving Inhabited

/-- The number of containers that may be open, and one more. -/
def depthLimit : Nat := 128

/-- A string as it is shown in a message. Controls and blanks other than the space are escaped. -/
def shown (s : String) : String :=
  let char (c : Char) : List Char :=
    if c = '"' then ['\\', '"']
    else if c = '\\' then ['\\', '\\']
    else if c = '\n' then ['\\', 'n']
    else if c = '\r' then ['\\', 'r']
    else if c = '\t' then ['\\', 't']
    else if c = '\x00' then ['\\', '0']
    else if c.toNat < 0x20 ∨ (0x7F ≤ c.toNat ∧ c.toNat < 0xA1) then
      ['\\', 'u', '\x7b'] ++ Nat.toDigits 16 c.toNat ++ ['\x7d']
    else [c]
  String.ofList ('"' :: s.toList.flatMap char ++ ['"'])

/-- What kind of value a text starts with, in words, and what is left behind it. A container is not
read. -/
def foundKind (cs : List Char) : Except Stop (String × List Char) :=
  match cs with
  | 'n' :: rest => (readWord "ull".toList rest).map (("null", ·))
  | 't' :: rest => (readWord "rue".toList rest).map (("boolean `true`", ·))
  | 'f' :: rest => (readWord "alse".toList rest).map (("boolean `false`", ·))
  | '"' :: rest => (readString rest).map fun (s, r) => ("string " ++ shown s, r)
  | '[' :: _ => .ok ("sequence", cs)
  | '\x7b' :: _ => .ok ("map", cs)
  | c :: rest =>
    let number := if c = '-' then some (readNumber true rest)
      else if c.isDigit then some (readNumber false cs) else none
    match number with
    | some r => r.map fun (j, r) =>
      match j with
      | .float x => ("floating point `" ++ writeFloat x ++ "`", r)
      | _ => ("integer `" ++ compact j ++ "`", r)
    | none => stopBefore .expectedValue cs
  | [] => stopBefore .expectedValue cs

def wrongKind {α : Type} (cs : List Char) (expected : String) : Except Stop α := do
  let (found, rest) ← foundKind cs
  stopAt (.wrongType found expected) rest

/-- The start of the next item of a list, or nothing when the list ends. -/
def nextItem (first : Bool) (cs : List Char) : Except Stop (Option (List Char)) :=
  match skipSpace cs with
  | [] => stopBefore .endInList []
  | ']' :: _ => .ok none
  | ',' :: rest =>
    if first then .ok (some (',' :: rest))
    else match skipSpace rest with
      | [] => stopBefore .endInValue []
      | ']' :: r => stopBefore .trailingComma (']' :: r)
      | r => .ok (some r)
  | rest => if first then .ok (some rest) else stopBefore .expectedListCommaOrEnd rest

def endList (cs : List Char) : Except Stop (List Char) :=
  match skipSpace cs with
  | [] => stopBefore .endInList []
  | ']' :: rest => .ok rest
  | ',' :: rest =>
    match skipSpace rest with
    | ']' :: r => stopBefore .trailingComma (']' :: r)
    | r => stopBefore .trailingCharacters r
  | rest => stopBefore .trailingCharacters rest

/-- The text behind the opening quote of the next name, or nothing when the object ends. -/
def nextName (first : Bool) (cs : List Char) : Except Stop (Option (List Char)) :=
  match skipSpace cs with
  | [] => stopBefore .endInObject []
  | '\x7d' :: _ => .ok none
  | c :: rest =>
    if first then
      if c = '"' then .ok (some rest) else stopBefore .keyMustBeString (c :: rest)
    else if c = ',' then
      match skipSpace rest with
      | [] => stopBefore .endInValue []
      | '"' :: r => .ok (some r)
      | '\x7d' :: r => stopBefore .trailingComma ('\x7d' :: r)
      | r => stopBefore .keyMustBeString r
    else stopBefore .expectedObjectCommaOrEnd (c :: rest)

def endObject (cs : List Char) : Except Stop (List Char) :=
  match skipSpace cs with
  | [] => stopBefore .endInObject []
  | '\x7d' :: rest => .ok rest
  | ',' :: rest => stopBefore .trailingComma (',' :: rest)
  | rest => stopBefore .trailingCharacters rest

/-- What is left behind the colon of a field. -/
def afterColon (cs : List Char) : Except Stop (List Char) :=
  match skipSpace cs with
  | [] => stopBefore .endInObject []
  | ':' :: rest => .ok rest
  | rest => stopBefore .expectedColon rest

mutual

def readAny : Nat → Nat → List Char → Except Stop (Json × List Char)
  | 0, _, cs => stopBefore .tooDeep cs
  | fuel + 1, depth, cs =>
    match skipSpace cs with
    | [] => stopBefore .endInValue []
    | 'n' :: rest => (readWord "ull".toList rest).map ((.null, ·))
    | 't' :: rest => (readWord "rue".toList rest).map ((.bool true, ·))
    | 'f' :: rest => (readWord "alse".toList rest).map ((.bool false, ·))
    | '"' :: rest => (readString rest).map fun (s, r) => (.string s, r)
    | '[' :: rest =>
      if depth ≤ 1 then stopBefore .tooDeep ('[' :: rest)
      else do
        let (items, r) ← readItems fuel (depth - 1) true rest
        pure (.array items, ← endList r)
    | '\x7b' :: rest =>
      if depth ≤ 1 then stopBefore .tooDeep ('\x7b' :: rest)
      else do
        let (fields, r) ← readFields fuel (depth - 1) true rest
        pure (.object fields, ← endObject r)
    | c :: rest =>
      if c = '-' then readNumber true rest
      else if c.isDigit then readNumber false (c :: rest)
      else stopBefore .expectedValue (c :: rest)

def readItems : Nat → Nat → Bool → List Char → Except Stop ((List Json) × List Char)
  | 0, _, _, cs => stopBefore .tooDeep cs
  | fuel + 1, depth, first, cs => do
    match ← nextItem first cs with
    | none => pure ([], cs)
    | some rest =>
      let (j, rest) ← readAny fuel depth rest
      let (js, rest) ← readItems fuel depth false rest
      pure (j :: js, rest)

/-- Reads the fields of an object up to its end. -/
def readFields : Nat → Nat → Bool → List Char → Except Stop ((List (String × Json)) × List Char)
  | 0, _, _, cs => stopBefore .tooDeep cs
  | fuel + 1, depth, first, cs => do
    match ← nextName first cs with
    | none => pure ([], cs)
    | some rest =>
      let (name, rest) ← readString rest
      let (j, rest) ← readAny fuel depth (← afterColon rest)
      let (js, rest) ← readFields fuel depth false rest
      pure ((name, j) :: js, rest)

end

/-- What is left behind a number that is not needed. -/
def skipNumber (cs : List Char) : Except Stop (List Char) := do
  let (_, rest) ← readNumeral false cs
  pure rest

mutual

/-- What is left behind a value that is not needed. -/
def skipValue : Nat → List Char → Except Stop (List Char)
  | 0, cs => stopBefore .tooDeep cs
  | fuel + 1, cs =>
    match skipSpace cs with
    | [] => stopBefore .endInValue []
    | 'n' :: rest => readWord "ull".toList rest
    | 't' :: rest => readWord "rue".toList rest
    | 'f' :: rest => readWord "alse".toList rest
    | '"' :: rest => skipStringFrom 0 rest
    | '[' :: rest => skipItems fuel true rest
    | '\x7b' :: rest => skipFields fuel true rest
    | c :: rest =>
      if c = '-' then skipNumber rest
      else if c.isDigit then skipNumber (c :: rest)
      else stopBefore .expectedValue (c :: rest)

/-- What is left behind the items of a list that is not needed. -/
def skipItems : Nat → Bool → List Char → Except Stop (List Char)
  | 0, _, cs => stopBefore .tooDeep cs
  | fuel + 1, first, cs =>
    match skipSpace cs with
    | [] => stopBefore .endInList []
    | ']' :: rest => .ok rest
    | c :: rest =>
      if first then do skipItems fuel false (← skipValue fuel (c :: rest))
      else if c = ',' then do skipItems fuel false (← skipValue fuel rest)
      else stopBefore .expectedListCommaOrEnd (c :: rest)

/-- What is left behind the fields of an object that is not needed. -/
def skipFields : Nat → Bool → List Char → Except Stop (List Char)
  | 0, _, cs => stopBefore .tooDeep cs
  | fuel + 1, first, cs =>
    match skipSpace cs with
    | [] => stopBefore .endInObject []
    | '\x7d' :: rest => .ok rest
    | c :: rest => do
      let start ←
        if first then pure (c :: rest)
        else if c = ',' then pure (skipSpace rest)
        else stopBefore .expectedObjectCommaOrEnd (c :: rest)
      match start with
      | [] => stopBefore .endInObject []
      | '"' :: r =>
        let r ← skipStringFrom 0 r
        skipFields fuel false (← skipValue fuel (← afterColon r))
      | r => stopBefore .keyMustBeString r

end

/-- A fault found when a container is complete: its end is read if it is there. -/
def stopBehind {α : Type} (fault : Fault) (ending : List Char → Except Stop (List Char))
    (cs : List Char) : Except Stop α :=
  match ending cs with
  | .ok rest => stopAt fault rest
  | .error _ => stopAt fault (skipSpace cs)

/-- How many elements a record has, in words. -/
def recordLength (name : String) (n : Nat) : String :=
  "struct " ++ name ++ " with " ++ toString n ++ (if n = 1 then " element" else " elements")

mutual

/-- Reads a value of a shape. A record becomes an object of the fields that were found. -/
def readAs : Nat → Nat → Shape → List Char → Except Stop (Json × List Char)
  | 0, _, _, cs => stopBefore .tooDeep cs
  | fuel + 1, depth, .any, cs => readAny fuel depth cs
  | fuel + 1, _, .ignored, cs => (skipValue fuel cs).map ((.null, ·))
  | _ + 1, _, .string, cs =>
    match skipSpace cs with
    | [] => stopBefore .endInValue []
    | '"' :: rest => (readString rest).map fun (s, r) => (.string s, r)
    | rest => wrongKind rest "a string"
  | fuel + 1, depth, .optional shape, cs =>
    match skipSpace cs with
    | 'n' :: rest => (readWord "ull".toList rest).map ((.null, ·))
    | rest => readAs fuel depth shape rest
  | fuel + 1, depth, .list shape, cs =>
    match skipSpace cs with
    | [] => stopBefore .endInValue []
    | '[' :: rest =>
      if depth ≤ 1 then stopBefore .tooDeep ('[' :: rest)
      else do
        let (items, r) ← readList fuel (depth - 1) shape true rest
        pure (.array items, ← endList r)
    | rest => wrongKind rest "a sequence"
  | fuel + 1, depth, .table shape, cs =>
    match skipSpace cs with
    | [] => stopBefore .endInValue []
    | '\x7b' :: rest =>
      if depth ≤ 1 then stopBefore .tooDeep ('\x7b' :: rest)
      else do
        let (fields, r) ← readTable fuel (depth - 1) shape true rest
        pure (.object fields, ← endObject r)
    | rest => wrongKind rest "a map"
  | fuel + 1, depth, .record name fields, cs =>
    match skipSpace cs with
    | [] => stopBefore .endInValue []
    | '[' :: rest =>
      if depth ≤ 1 then stopBefore .tooDeep ('[' :: rest)
      else do
        let (found, r) ←
          readElements fuel (depth - 1) (recordLength name fields.length) 0 fields rest
        pure (.object found, ← endList r)
    | '\x7b' :: rest =>
      if depth ≤ 1 then stopBefore .tooDeep ('\x7b' :: rest)
      else do
        let (found, r) ← readRecord fuel (depth - 1) fields [] true rest
        match fields.find? fun (k, required, _) => required && !found.any (·.1 == k) with
        | some (k, _, _) => stopBehind (.missingField k) endObject r
        | none => pure (.object found, ← endObject r)
    | rest => wrongKind rest ("struct " ++ name)

/-- Reads the items of a list of one shape up to its end. -/
def readList : Nat → Nat → Shape → Bool → List Char → Except Stop ((List Json) × List Char)
  | 0, _, _, _, cs => stopBefore .tooDeep cs
  | fuel + 1, depth, shape, first, cs => do
    match ← nextItem first cs with
    | none => pure ([], cs)
    | some rest =>
      let (j, rest) ← readAs fuel depth shape rest
      let (js, rest) ← readList fuel depth shape false rest
      pure (j :: js, rest)

/-- Reads the entries of a table of one shape up to its end. -/
def readTable : Nat → Nat → Shape → Bool → List Char →
    Except Stop ((List (String × Json)) × List Char)
  | 0, _, _, _, cs => stopBefore .tooDeep cs
  | fuel + 1, depth, shape, first, cs => do
    match ← nextName first cs with
    | none => pure ([], cs)
    | some rest =>
      let (name, rest) ← readString rest
      let (j, rest) ← readAs fuel depth shape (← afterColon rest)
      let (js, rest) ← readTable fuel depth shape false rest
      pure ((name, j) :: js, rest)

/-- Reads the values of a record that is written as a list, from the one with index `index`. -/
def readElements : Nat → Nat → String → Nat → List (String × Bool × Shape) → List Char →
    Except Stop ((List (String × Json)) × List Char)
  | 0, _, _, _, _, cs => stopBefore .tooDeep cs
  | _ + 1, _, _, _, [], cs => .ok ([], cs)
  | fuel + 1, depth, expected, index, (k, required, shape) :: fields, cs => do
    match ← nextItem (index == 0) cs with
    | none =>
      if required then stopBehind (.wrongLength index expected) endList cs
      else readElements fuel depth expected (index + 1) fields cs
    | some rest =>
      let (j, rest) ← readAs fuel depth shape rest
      let (js, rest) ← readElements fuel depth expected (index + 1) fields rest
      pure ((k, j) :: js, rest)

/-- Reads the fields of a record up to its end; `found` are the fields met so far. -/
def readRecord : Nat → Nat → List (String × Bool × Shape) → List (String × Json) → Bool →
    List Char → Except Stop ((List (String × Json)) × List Char)
  | 0, _, _, _, _, cs => stopBefore .tooDeep cs
  | fuel + 1, depth, fields, found, first, cs => do
    match ← nextName first cs with
    | none => pure (found, cs)
    | some rest =>
      let (name, rest) ← readString rest
      match fields.find? (·.1 == name) with
      | some (_, _, shape) =>
        if found.any (·.1 == name) then stopBehind (.duplicateField name) endObject rest
        else
          let (j, rest) ← readAs fuel depth shape (← afterColon rest)
          readRecord fuel depth fields (found ++ [(name, j)]) false rest
      | none =>
        let rest ← skipValue fuel (← afterColon rest)
        readRecord fuel depth fields found false rest

end

def readShape (shape : Shape) (text : List Char) : Except Stop Json := do
  let (j, rest) ← readAs (2 * text.length + 64) depthLimit shape text
  match skipSpace rest with
  | [] => pure j
  | rest => stopBefore .trailingCharacters rest

def read (text : List Char) : Except Stop Json := readShape .any text

def read? (text : List Char) : Option Json := (read text).toOption

end CodeHealth.Json
