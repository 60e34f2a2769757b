import CodeHealth.Json.Value

/-!
Writing of JSON, in one line or with one item a line.
-/

namespace CodeHealth.Json

/-- Numbers are positional from `0.00001` to below `10 ^ 16` and show a point. -/
def numberNotation : Decimal.Notation := ⟨-5, 15, true, .toEven⟩

/-- The digits of a number below sixteen. -/
def hexDigit (n : Nat) : Char := if n < 10 then Char.ofNat (48 + n) else Char.ofNat (87 + n)

/-- A character inside quotes: quotes, backslashes and the control characters are escaped. -/
def escapeChar (c : Char) : List Char :=
  if c = '"' then ['\\', '"']
  else if c = '\\' then ['\\', '\\']
  else if c = '\n' then ['\\', 'n']
  else if c = '\r' then ['\\', 'r']
  else if c = '\t' then ['\\', 't']
  else if c = '\x08' then ['\\', 'b']
  else if c = '\x0c' then ['\\', 'f']
  else if c.toNat < 0x20 then
    ['\\', 'u', '0', '0', hexDigit (c.toNat / 16), hexDigit (c.toNat % 16)]
  else [c]

def quote (s : String) : String := String.ofList ('"' :: s.toList.flatMap escapeChar ++ ['"'])

def writeFloat (x : Float) : String :=
  if x.isFinite then numberNotation.write64 x else "null"

mutual

def compact : Json → String
  | .null => "null"
  | .bool b => if b then "true" else "false"
  | .integer n => toString n
  | .float x => writeFloat x
  | .string s => quote s
  | .array items => "[" ++ compactItems items ++ "]"
  | .object fields => "\x7b" ++ compactFields fields ++ "\x7d"

def compactItems : List Json → String
  | [] => ""
  | [j] => compact j
  | j :: rest => compact j ++ "," ++ compactItems rest

def compactFields : List (String × Json) → String
  | [] => ""
  | [(k, v)] => quote k ++ ":" ++ compact v
  | (k, v) :: rest => quote k ++ ":" ++ compact v ++ "," ++ compactFields rest

end

/-- The start of a line at a given depth. -/
def newline (depth : Nat) : String :=
  String.ofList ('\n' :: List.replicate (2 * depth) ' ')

mutual

/-- A value with one item a line, indented by two spaces a level. -/
def prettyAt (depth : Nat) : Json → String
  | .array [] => "[]"
  | .array items => "[" ++ prettyItems (depth + 1) items ++ newline depth ++ "]"
  | .object [] => "\x7b\x7d"
  | .object fields => "\x7b" ++ prettyFields (depth + 1) fields ++ newline depth ++ "\x7d"
  | .null => "null"
  | .bool b => if b then "true" else "false"
  | .integer n => toString n
  | .float x => writeFloat x
  | .string s => quote s

/-- The items of an array, each on a line of its own. -/
def prettyItems (depth : Nat) : List Json → String
  | [] => ""
  | [j] => newline depth ++ prettyAt depth j
  | j :: rest => newline depth ++ prettyAt depth j ++ "," ++ prettyItems depth rest

/-- The fields of an object, each on a line of its own. -/
def prettyFields (depth : Nat) : List (String × Json) → String
  | [] => ""
  | [(k, v)] => newline depth ++ quote k ++ ": " ++ prettyAt depth v
  | (k, v) :: rest =>
    newline depth ++ quote k ++ ": " ++ prettyAt depth v ++ "," ++ prettyFields depth rest

end

/-- A value with one item a line. -/
def pretty (j : Json) : String := prettyAt 0 j

end CodeHealth.Json
