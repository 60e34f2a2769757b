import CodeHealth.Json.Reader
import CodeHealth.Text.Occurrence

/-!
The payload of a reply: what a model was asked to put into a JSON object, and where in a text such
an object may stand.
-/

namespace CodeHealth.Advice

structure Payload where
  summary : Option String
  insights : List String
  suggestions : List String
deriving DecidableEq, Repr, Inhabited

/-- A string without blanks around it, unless nothing is left. -/
def nonBlank? (s : String) : Option String :=
  let t := Text.trimmed s
  if t.isEmpty then none else some t

/-- The strings of an array, without blanks around them; what is no string or blank is dropped. -/
def stringItems? : Json → Option (List String)
  | .array items => some ((items.filterMap Json.asString?).filterMap nonBlank?)
  | _ => none

/-- The payload of an object: it has a summary that is not blank, or a list of suggestions or
insights. -/
def Payload.ofFields? (fields : List (String × Json)) : Option Payload :=
  let summary := ((Json.field? "summary" fields).bind Json.asString?).bind nonBlank?
  let suggestions := (Json.field? "suggestions" fields).bind stringItems?
  let insights := (Json.field? "insights" fields).bind stringItems?
  if summary.isNone ∧ suggestions.isNone ∧ insights.isNone then none
  else some ⟨summary, insights.getD [], suggestions.getD []⟩

/-- The payload that a text is, if it is a JSON object that has one. -/
def Payload.ofText? (text : List Char) : Option Payload :=
  match Json.read? text with
  | some (.object fields) => Payload.ofFields? fields
  | _ => none

/-! ### Places of objects -/

/-- The text before the first occurrence of a mark, and the text behind it. -/
def splitAtMark? (mark : List Char) : List Char → Option (List Char × List Char)
  | [] => if mark.isEmpty then some ([], []) else none
  | c :: cs =>
    match Text.afterWord? mark (c :: cs) with
    | some rest => some ([], rest)
    | none => (splitAtMark? mark cs).map fun (before, rest) => (c :: before, rest)

/-- What fences a block of code. -/
def fence : List Char := ['`', '`', '`']

/-- Whether a character may stand in the name of the language behind a fence. -/
def isLanguageChar (c : Char) : Bool :=
  Text.isAsciiLetter c || c.isDigit || c == '_' || c == '-'

/-- A text without the given character at its front. -/
def dropOne (c : Char) : List Char → List Char
  | [] => []
  | d :: ds => if d = c then ds else d :: ds

/-- The text behind a fence without the name of a language and the end of its line. -/
def dropLanguage (text : List Char) : List Char :=
  dropOne '\n' (dropOne '\r' ((text.dropWhile isLanguageChar).dropWhile Text.isIndent))

def fencedBlock? (text : List Char) : Option (List Char) :=
  match splitAtMark? fence text with
  | some (_, rest) => (splitAtMark? fence (dropLanguage rest)).map (·.1)
  | none => none

/-- The number of characters up to the brace that closes `depth` open ones, that one included.
Braces inside quotes do not count; `quoted` says whether the text starts inside of them, and a
character behind a backslash does not end them. -/
def balancedLength (quoted escaped : Bool) : Nat → List Char → Option Nat
  | _, [] => none
  | depth, c :: cs =>
    if quoted then
      if escaped then (balancedLength true false depth cs).map (· + 1)
      else if c = '\\' then (balancedLength true true depth cs).map (· + 1)
      else (balancedLength (c != '"') false depth cs).map (· + 1)
    else if c = '"' then (balancedLength true false depth cs).map (· + 1)
    else if c = '\x7b' then (balancedLength false false (depth + 1) cs).map (· + 1)
    else if c = '\x7d' then
      if depth ≤ 1 then some 1 else (balancedLength false false (depth - 1) cs).map (· + 1)
    else (balancedLength false false depth cs).map (· + 1)

/-- The block from the first opening brace to the brace that closes it. -/
def outerBlock? (text : List Char) : Option (List Char) :=
  let rest := text.dropWhile (· != '\x7b')
  match rest with
  | [] => none
  | _ :: cs => (balancedLength false false 1 cs).map fun n => rest.take (n + 1)

/-- The blocks between an opening and a closing brace with no brace between them. `since` is what
stands since the last opening brace, in reverse, if no closing brace came. -/
def flatBlocksFrom : Option (List Char) → List Char → List (List Char)
  | _, [] => []
  | since, c :: cs =>
    if c = '\x7b' then flatBlocksFrom (some ['\x7b']) cs
    else if c = '\x7d' then
      match since with
      | some before => (c :: before).reverse :: flatBlocksFrom none cs
      | none => flatBlocksFrom none cs
    else flatBlocksFrom (since.map (c :: ·)) cs

/-- The blocks between an opening and a closing brace with no brace between them. -/
def flatBlocks (text : List Char) : List (List Char) := flatBlocksFrom none text

end CodeHealth.Advice
