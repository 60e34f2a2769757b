import CodeHealth.Check.Basic
import CodeHealth.Rule.Catalog
import CodeHealth.Text.Bracket
import CodeHealth.Word

/-!
Components that are too long. A component is a function with a capital name that is declared at the
start of a line; its length is counted from the line of its name to the line that closes its body.
-/

namespace CodeHealth.Check

open Text

/-- The header of a component: how many characters stand before its name, the name, and the text
behind the bracket that opens its parameters. -/
structure Header where
  skipped : Nat
  name : List Char
  parameters : List Char

/-- What is left behind a word and blanks, or the text itself if it does not start so. -/
def skipWordAndBlanks (word : List Char) (rest : List Char) : List Char :=
  ((afterWord? word rest).bind afterBlanks?).getD rest

def atLineStart (before : Option Char) : Bool := before.all (· == '\n')

/-- Reads a name that starts with an ASCII capital. -/
def capitalName (rest : List Char) : Option (List Char × List Char) :=
  if rest.head?.any isCapital then some (spanWord rest) else none

/-- What is left behind the parameters of a generic function, if there are any. -/
def skipTypeParameters (rest : List Char) : List Char :=
  match rest with
  | '<' :: cs =>
    match cs.dropWhile (· != '>') with
    | _ :: left => left
    | [] => rest
  | _ => rest

/-- Reads the header of a component that is declared as a function. -/
def functionHeader : Recogniser Header := fun before rest =>
  if !atLineStart before then none
  else
    let start := rest.dropWhile isIndent
    let exported := (afterWord? "export".toList start).bind afterBlanks?
    let start := match exported with
      | some left => skipWordAndBlanks "default".toList left
      | none => start
    match (afterWord? "function".toList start).bind afterBlanks? with
    | none => none
    | some named =>
      match capitalName named with
      | none => none
      | some (name, left) =>
        (afterMark? '(' (skipTypeParameters (skipBlanks left))).map fun parameters =>
          (⟨rest.length - named.length, name, parameters⟩, parameters)

/-- What is left behind the type of a constant, if it has one; the type ends before an equals sign
in the same line. -/
def skipConstantType (rest : List Char) : List Char :=
  match rest with
  | ':' :: cs =>
    if cs.head?.any fun c => c != '=' && c != '\n' then cs.dropWhile fun c => c != '=' && c != '\n'
    else rest
  | _ => rest

/-- What is left behind a call that wraps a component, if there is one. -/
def skipWrapper (rest : List Char) : Option (List Char) :=
  let start := (afterWord? "React.".toList rest).getD rest
  match afterAnyOf? ["memo".toList, "forwardRef".toList] start with
  | some (_, left) => (afterMark? '(' left).map skipBlanks
  | none => none

/-- What is left behind the bracket that opens the parameters of a function that is a value. -/
def functionValue (rest : List Char) : Option (List Char) :=
  let start := skipWordAndBlanks "async".toList rest
  let behindWord := match afterWord? "function".toList start with
    | some left =>
      if left.head?.any isWordChar then start else left.dropWhile fun c => c != '(' && c != '\n'
    | none => start
  afterWord? ['('] behindWord

/-- Reads the header of a component that is a constant. -/
def constantHeader : Recogniser Header := fun before rest =>
  if !atLineStart before then none
  else
    let start := skipWordAndBlanks "export".toList (rest.dropWhile isIndent)
    match afterAnyOf? ["const".toList, "let".toList] start with
    | none => none
    | some (_, left) =>
      match afterBlanks? left with
      | none => none
      | some named =>
        match capitalName named with
        | none => none
        | some (name, left) =>
          match afterWord? ['='] (skipConstantType (skipBlanks left)) with
          | none => none
          | some value =>
            let value := skipBlanks value
            let wrapped := (skipWrapper value).bind functionValue
            (wrapped.or (functionValue value)).map fun parameters =>
              (⟨rest.length - named.length, name, parameters⟩, parameters)

/-- The byte offset of the bracket that opens the body of a function, in the text behind its
parameters. The body of an arrow function has to start with a curly or a round bracket; an arrow
counts if no curly bracket stands before it. -/
def bodyStart (rest : List Char) : Checked (Option Nat) := do
  let brace := (offsetsOf ['\x7b'] rest).head?
  match (offsetsOf "=>".toList rest).head? with
  | none => pure brace
  | some arrow =>
    if brace.all (arrow < ·) then
      let behind ← sliceFrom (arrow + 2) rest
      let blanks ← minus (byteLength behind) (byteLength (skipBlanks behind))
      let start := arrow + 2 + blanks
      pure <| match (bytes rest)[start]? with
        | some b => if b = '\x7b'.toUInt8 ∨ b = '('.toUInt8 then some start else none
        | none => none
    else pure brace

/-- The byte offset of the bracket that closes the body of a function whose parameters end before a
byte offset. -/
def bodyEnd (text : List Char) (start : Nat) : Checked (Option Nat) :=
  match splitAtByte start text with
  | none => pure none
  | some (_, rest) => do
    match ← bodyStart rest with
    | some opening => closeOf text (start + opening)
    | none => pure none

/-- The number of lines that a component may have by default. -/
def defaultBudget : Int := 250

/-- The number of lines that a component may have. The option is at least one and is read as a
number of 32 bits. -/
def lineBudget (o : Rule.Options) : Nat :=
  (max (o.intOr "max_lines" defaultBudget) 1).toNat % Word.bound32

/-- The byte offset of the bracket that closes the body of the component with a header. -/
def componentEnd (text : List Char) (h : Header) : Checked (Option Nat) := do
  let opening ← minus (offsetAt text (text.length - h.parameters.length)) 1
  match ← closeOf text opening with
  | some closing => bodyEnd text (closing + 1)
  | none => pure none

/-- The hit for a component whose header starts at an index, if it is longer than the budget. -/
def lengthHit? (text : List Char) (budget : Nat) (i : Nat) (h : Header) :
    Checked (Option Hit) := do
  match ← componentEnd text h with
  | none => pure none
  | some stop =>
    let first ← placeAt text (offsetAt text (i + h.skipped))
    let last ← placeAt text stop
    let length := Word.ordinal32 (← minus last.line first.line)
    if budget < length then
      pure (some (.at first
        ("Component `" ++ String.ofList h.name ++ "` is " ++ toString length ++
          " lines long (limit " ++ toString budget ++ ")")
        "Split it into smaller components or extract logic into custom hooks"))
    else pure none

/-- Whether a hit may be told before another. -/
def Hit.placeLe (a b : Hit) : Bool :=
  a.line < b.line || (a.line == b.line && a.column ≤ b.column)

/-- The headers of components in a text with their indices: functions first. -/
def headers (text : List Char) : List (Nat × Header) :=
  occurrences functionHeader text ++ occurrences constantHeader text

/-- Finds components that are too long. -/
def largeComponent : Checker where
  ruleId := Rule.largeComponent.id
  appliesTo := Path.mayHoldMarkup
  check src := .ofChecked do
    let hits ← (headers src.masked).filterMapM fun (i, h) =>
      lengthHit? src.masked (lineBudget src.options) i h
    pure (hits.mergeSort Hit.placeLe)

end CodeHealth.Check
