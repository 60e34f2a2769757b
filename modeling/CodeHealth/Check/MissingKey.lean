import CodeHealth.Check.Basic
import CodeHealth.Rule.Catalog
import CodeHealth.Text.Bracket
import CodeHealth.Text.Tag

/-!
Elements of lists without a key. With a syntax tree, the elements that the function given to a
`map` call returns are looked at; without one, the first tag behind `.map(` is.
-/

namespace CodeHealth.Check

open Text Script

def keyMessage : String := "Element rendered from .map() has no `key` prop"

def keySuggestion : String :=
  "Add a stable key, e.g. key=\x7bitem.id\x7d; avoid array indexes when the list can reorder"

/-- Advice for a fragment without a name, which cannot have a key. -/
def fragmentSuggestion : String :=
  "Short fragments cannot take a key; use <React.Fragment key=\x7b...\x7d> instead"

/-! ### With a tree -/

def calledMethod? (t : Tree) : Option String :=
  match t.kind, t.children.head? with
  | .call, some (.node .member _ parts) =>
    match parts.getLast? with
    | some (.node (.property name) _ _) => some name
    | _ => none
  | _, _ => none

def firstArgument? (t : Tree) : Option Tree :=
  match t.children.find? fun c => c.kind = .arguments with
  | some args => args.children.head?
  | none => none

/-- A node, if it is an element with or without content. -/
def elementOnly (t : Tree) : List Tree :=
  if t.kind = .markupElement ∨ t.kind = .markupSelfClosing then [t] else []

/-- The elements that a function given to a call returns: its body, or the values of the return
statements that stand directly in its body. -/
def returnedElements (callback : Tree) : List Tree :=
  if callback.kind = .arrow ∨ callback.kind = .functionExpression then
    match callback.children.getLast? with
    | none => []
    | some body =>
      if body.kind = .block then
        body.children.flatMap fun stmt =>
          match stmt.kind, stmt.children.head? with
          | .returnStatement, some value => elementOnly (unparenthesize value)
          | _, _ => []
      else elementOnly (unparenthesize body)
  else []

/-- Whether an attribute supplies a key: its name says so, or it spreads an object. -/
def suppliesKey (attr : Tree) : Bool :=
  match attr.kind with
  | .markupAttribute name => name == "key"
  | .markupExpression => attr.children.any fun c => c.kind = .spread
  | _ => false

def elementHit? (element : Tree) : Option Hit :=
  let opening? :=
    if element.kind = .markupElement then
      element.children.find? fun c => c.kind = .markupOpening true ∨ c.kind = .markupOpening false
    else some element
  match opening? with
  | none => none
  | some opening =>
    if opening.kind = .markupOpening true then
      some (.at element.start keyMessage fragmentSuggestion)
    else if opening.children.any suppliesKey then none
    else some (.at element.start keyMessage keySuggestion)

def missingKeysAt (t : Tree) : List Hit :=
  if calledMethod? t = some "map" then
    match firstArgument? t with
    | some callback => (returnedElements callback).filterMap elementHit?
    | none => []
  else []

def missingKeysInTree (t : Tree) : List Hit :=
  visit (fun _ _ => ()) (fun _ node => missingKeysAt node) () t

/-! ### Without a tree -/

/-- Reads the start of a `map` call: the text behind the opening bracket. -/
def mapCall : Recogniser (List Char) := fun _ rest =>
  ((afterWord? ".map".toList rest).bind (afterMark? '(')).map fun left => (left, left)

/-- Whether a tag may start at the front of a text: a `<` with a letter or a `>` behind it. -/
def startsTag : List Char → Bool
  | '<' :: c :: _ => isAsciiLetter c || c == '>'
  | _ => false

def firstTag? : List Char → Option Nat
  | [] => none
  | c :: cs => if startsTag (c :: cs) then some 0 else (firstTag? cs).map (· + 1)

/-- A tag that a `map` call gives: its byte offset, and whether it is a fragment without a name. -/
structure GivenTag where
  start : Nat
  isFragment : Bool
deriving DecidableEq, Repr

/-- The first tag inside the brackets of a `map` call, or behind it if the brackets do not close.
The call is given by the text behind its bracket. -/
def tagOfCall? (text left : List Char) : Checked (Option GivenTag) := do
  let opening ← minus (offsetAt text (text.length - left.length)) 1
  let stop := (← closeOf text opening).getD (byteLength text)
  match slice opening stop text with
  | .error _ => pure none
  | .ok region =>
    pure <| (firstTag? region).map fun k =>
      ⟨opening + offsetAt region k, (region.drop (k + 1)).head? == some '>'⟩

def tagHit? (text : List Char) (tag : GivenTag) : Checked (Option Hit) := do
  let p ← placeAt text tag.start
  if tag.isFragment then pure (some (.at p keyMessage fragmentSuggestion))
  else
    match tagExtent text tag.start with
    | none => pure none
    | some stop =>
      let written ← slice tag.start stop text
      if (← findsAttribute written "key".toList) || hasSpread written then pure none
      else pure (some (.at p keyMessage keySuggestion))

/-- The hits for `map` calls, which are given by the texts behind their brackets, where the tags
with the byte offsets `seen` have been looked at. -/
def missingKeysOfCalls (text : List Char) (seen : List Nat) :
    List (List Char) → Checked (List Hit)
  | [] => pure []
  | left :: calls => do
    match ← tagOfCall? text left with
    | none => missingKeysOfCalls text seen calls
    | some tag =>
      if seen.contains tag.start then missingKeysOfCalls text seen calls
      else
        let hit ← tagHit? text tag
        pure (hit.toList ++ (← missingKeysOfCalls text (tag.start :: seen) calls))

def missingKeysInText (text : List Char) : Checked (List Hit) :=
  missingKeysOfCalls text [] ((occurrences mapCall text).map (·.2))

/-- Finds elements of lists without a key. -/
def missingKey : Checker where
  ruleId := Rule.missingKey.id
  appliesTo := Path.mayHoldMarkup
  check src :=
    match src.tree with
    | some t => .hits (missingKeysInTree t)
    | none => .ofChecked (missingKeysInText src.masked)

end CodeHealth.Check
