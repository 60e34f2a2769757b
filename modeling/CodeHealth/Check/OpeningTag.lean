import CodeHealth.Check.Basic
import CodeHealth.Rule.Catalog
import CodeHealth.Text.Tag

/-!
Opening tags in masked text, and two rules on them: images need a text for those who cannot see
them, and what answers to clicks has to answer to the keyboard.
-/

namespace CodeHealth.Check

open Text

/-- Reads the start of a tag with one of the given names: the name. -/
def tagStart (names : List (List Char)) : Recogniser (List Char) := fun _ rest =>
  match rest with
  | '<' :: rest =>
    names.findSome? fun name =>
      match afterWord? name rest with
      | some left => if left.head?.any isWordChar then none else some (name, left)
      | none => none
  | _ => none

/-- The tags with one of the given names that have an end: byte offset, name and text. -/
def openingTags (names : List (List Char)) (text : List Char) :
    Checked (List (Nat × List Char × List Char)) :=
  (occurrences (tagStart names) text).filterMapM fun (i, name) => do
    let start := offsetAt text i
    match tagExtent text start with
    | some stop => pure (some (start, name, ← slice start stop text))
    | none => pure none

def has (tag : List Char) (name : String) : Checked Bool := findsAttribute tag name.toList

def imageNames : List (List Char) := ["img".toList, "Image".toList]

def imageHit? (text : List Char) (start : Nat) (name tag : List Char) : Checked (Option Hit) := do
  if (← has tag "alt") || hasSpread tag then pure none
  else
    pure (some (.at (← placeAt text start) ("<" ++ String.ofList name ++ "> has no alt text")
      "Describe the image in `alt`, or use alt=\"\" if it is purely decorative"))

/-- Finds images without a text. -/
def imageAlt : Checker where
  ruleId := Rule.imageAlt.id
  appliesTo := Path.mayHoldMarkup
  check src := .ofChecked do
    let tags ← openingTags imageNames src.masked
    tags.filterMapM fun (start, name, tag) => imageHit? src.masked start name tag

/-- The elements that do not answer to the keyboard of themselves. -/
def staticElements : List (List Char) :=
  ["div".toList, "span".toList, "li".toList, "p".toList, "section".toList, "img".toList]

/-- The attributes that answer to the keyboard. -/
def keyHandlers : List String := ["onKeyDown", "onKeyUp", "onKeyPress"]

/-- The hit for the tag of a static element, if it answers to clicks alone. -/
def clickHit? (text : List Char) (start : Nat) (name tag : List Char) : Checked (Option Hit) := do
  if !(← has tag "onClick") || hasSpread tag then pure none
  else if ← keyHandlers.anyM (has tag) then pure none
  else
    pure (some (.at (← placeAt text start)
      ("<" ++ String.ofList name ++ "> handles clicks but not keyboard input")
      "Use a <button>, or add onKeyDown together with role and tabIndex"))

/-- Finds static elements that answer to clicks alone. -/
def clickKeyboard : Checker where
  ruleId := Rule.clickKeyboard.id
  appliesTo := Path.mayHoldMarkup
  check src := .ofChecked do
    let tags ← openingTags staticElements src.masked
    tags.filterMapM fun (start, name, tag) => clickHit? src.masked start name tag

end CodeHealth.Check
