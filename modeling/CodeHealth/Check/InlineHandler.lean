import CodeHealth.Check.Basic
import CodeHealth.Rule.Catalog

/-!
Functions that are written into the event properties of markup.
-/

namespace CodeHealth.Check

open Text

/-- Whether a plain name may start with a character. -/
def startsPlainName (c : Char) : Bool := isAsciiLetter c || c == '_' || c == '$'

/-- Reads the parameters of an arrow function: a plain name, or anything in round brackets. -/
def arrowParameters : List Char → Option (List Char)
  | [] => none
  | c :: cs =>
    if c = '(' then
      match cs.dropWhile (· != ')') with
      | _ :: rest => some rest
      | [] => none
    else if startsPlainName c then some (cs.dropWhile fun d => isWordChar d || d == '$')
    else none

/-- Reads an arrow function up to its arrow, or the word that starts a function. -/
def functionStart (rest : List Char) : Option (List Char) :=
  let arrow := ((arrowParameters rest).map skipBlanks).bind (afterWord? "=>".toList)
  arrow.or <|
    match afterWord? "function".toList rest with
    | some left => if left.head?.any isWordChar then none else some left
    | none => none

/-- Reads an event property with a function as its value: the name of the property. -/
def inlineProperty : Recogniser (List Char) := fun before rest =>
  if !atBoundary before rest then none
  else match spanWord rest with
    | (name, left) =>
      match name with
      | 'o' :: 'n' :: c :: _ =>
        if !isCapital c then none
        else match ((afterMark? '=' left).bind (afterMark? '\x7b')).map skipBlanks with
          | none => none
          | some value =>
            let behindAsync := (afterWord? "async".toList value).bind afterBlanks?
            ((behindAsync.bind functionStart).or (functionStart value)).map (name, ·)
      | _ => none

/-- Finds functions that are written into event properties. -/
def inlineHandler : Checker where
  ruleId := Rule.inlineHandler.id
  appliesTo := Path.mayHoldMarkup
  check src :=
    .hits <| hitsByLine inlineProperty src.masked fun n line i name =>
      some (.at ⟨n, columnAt line (offsetAt line i)⟩
        ("Inline function passed to `" ++ String.ofList name ++ "`")
        "Hoist the handler or wrap it in useCallback so memoised children do not re-render")

end CodeHealth.Check
