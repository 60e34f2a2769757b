import CodeHealth.Check.Basic
import CodeHealth.Rule.Catalog
import CodeHealth.Text.Bracket
import CodeHealth.Text.Tag
import CodeHealth.Word

/-!
Rules on hooks: they are not to be called under a condition, and those that watch values need the
list of the values.
-/

namespace CodeHealth.Check

open Text Script

/-- Whether a name is that of a hook: `use` and an ASCII capital. -/
def isHookName : List Char → Bool
  | 'u' :: 's' :: 'e' :: c :: _ => isCapital c
  | _ => false

/-- The hit for a hook that is called under a condition. -/
def conditionalHit (name : String) (p : Position) : Hit :=
  .at p ("React hook `" ++ name ++ "` is called conditionally")
    ("Call hooks unconditionally at the top level of the component; move the condition inside " ++
      "the hook")

/-! ### Conditional calls, with a tree -/

/-- What the nearest function or condition above a node is; `none` if there is neither. -/
abbrev Nearest := Option Bool

/-- What is nearest below a node: a condition is `true`, a function `false`. -/
def below (above : Nearest) (k : Kind) : Nearest :=
  if k.isFunctionBoundary then some false
  else if k.isConditional then some true
  else above

/-- The name of what a node calls, and where it stands. -/
def calledName? (t : Tree) : Option (String × Position) :=
  match t.kind, t.children.head? with
  | .call, some (.node (.identifier name) p _) => some (name, p)
  | .call, some (.node .member _ parts) =>
    match parts.getLast? with
    | some (.node (.property name) p _) => some (name, p)
    | _ => none
  | _, _ => none

def conditionalHooksAt (above : Nearest) (t : Tree) : List Hit :=
  match calledName? t with
  | some (name, p) =>
    if isHookName name.toList && above == some true then [conditionalHit name p] else []
  | none => []

def conditionalHooksInTree (t : Tree) : List Hit := visit below conditionalHooksAt none t

/-! ### Conditional calls, without a tree -/

def hookCall : Recogniser (List Char) := fun before rest =>
  if atBoundary before rest && isHookName rest then
    let (name, left) := spanWord rest
    (afterMark? '(' left).map (name, ·)
  else none

def conditionWords : List (List Char) :=
  ["if".toList, "else".toList, "for".toList, "while".toList, "switch".toList, "case".toList,
    "do".toList]

/-- What a brace belongs to, judged by its line. -/
inductive Frame where
  | function
  | conditional
  | plain
deriving DecidableEq, Repr

def frameOf (line : List Char) : Frame :=
  if hasWord ["function".toList] line || contains "=>".toList line then .function
  else if hasWord conditionWords line then .conditional
  else .plain

/-- The open braces after a line: each opening brace is put on top, each closing one takes the top
off if there is one. -/
def pushBraces (frame : Frame) (stack : List Frame) (line : List Char) : List Frame :=
  line.foldl (fun st c => if c = '\x7b' then frame :: st else if c = '\x7d' then st.tail else st)
    stack

/-- Whether the innermost open brace that is not plain belongs to a condition. -/
def inConditional : List Frame → Bool
  | [] => false
  | .function :: _ => false
  | .conditional :: _ => true
  | .plain :: rest => inConditional rest

/-- Whether what stands before a call in its line makes it conditional. -/
def inlineCondition (before : List Char) : Bool :=
  before.contains '?' || contains "&&".toList before || contains "||".toList before ||
    hasWord conditionWords before

def conditionalHooksInLine (stack : List Frame) (n : Nat) (line : List Char) :
    Checked (List Hit) :=
  (occurrences hookCall line).filterMapM fun (i, name) => do
    let before ← sliceTo (offsetAt line i) line
    if inConditional stack || inlineCondition before then
      pure (some (conditionalHit (String.ofList name) ⟨n, columnAt line (offsetAt line i)⟩))
    else pure none

/-- The hits of lines, with the braces that are open before them. -/
def conditionalHooksInLines (stack : List Frame) : List (Nat × List Char) → Checked (List Hit)
  | [] => pure []
  | (n, line) :: rest => do
    let hits ← conditionalHooksInLine stack n line
    pure (hits ++ (← conditionalHooksInLines (pushBraces (frameOf line) stack line) rest))

def conditionalHooksInText (text : List Char) : Checked (List Hit) :=
  conditionalHooksInLines [] (numberedLines text)

/-- Finds hooks that are called under a condition. -/
def conditionalHook : Checker where
  ruleId := Rule.conditionalHook.id
  appliesTo := Path.isScript
  check src :=
    match src.tree with
    | some t => .hits (conditionalHooksInTree t)
    | none => .ofChecked (conditionalHooksInText src.masked)

/-! ### Missing lists of dependencies -/

def watchingHooks : List (List Char) :=
  ["useEffect".toList, "useLayoutEffect".toList, "useCallback".toList, "useMemo".toList]

/-- Reads the call of a hook that watches values: its name, and the text behind the bracket. -/
def watchingCall : Recogniser (List Char × List Char) := fun before rest =>
  if !atBoundary before rest then none
  else watchingHooks.findSome? fun name =>
    ((afterWord? name rest).bind (afterMark? '(')).map fun left => ((name, left), left)

/-- A number, if it fits 32 bits with a sign. -/
def signed32 (n : Int) : Checked Int :=
  if -(Word.signedBound32 : Int) ≤ n ∧ n < (Word.signedBound32 : Int) then .ok n
  else if n < 0 then .error .difference
  else .error .sum

/-- Whether a comma stands outside all brackets of a text. The brackets are counted without regard
to their kinds. -/
def hasTopLevelComma : Int → List Char → Checked Bool
  | _, [] => pure false
  | depth, c :: cs => do
    if c = '(' ∨ c = '[' ∨ c = '\x7b' then hasTopLevelComma (← signed32 (depth + 1)) cs
    else if c = ')' ∨ c = ']' ∨ c = '\x7d' then hasTopLevelComma (← signed32 (depth - 1)) cs
    else if c = ',' ∧ depth = 0 then pure true
    else hasTopLevelComma depth cs

/-- The hit for the call of a hook that watches values, if it has no list of them. The call is given
by its index and the text behind its bracket. -/
def watchingHit? (text : List Char) (i : Nat) (name left : List Char) : Checked (Option Hit) := do
  let opening ← minus (offsetAt text (text.length - left.length)) 1
  match ← closeOf text opening with
  | none => pure none
  | some closing =>
    if ← hasTopLevelComma 0 (← slice (opening + 1) closing text) then pure none
    else
      pure (some (.at (← placeAt text (offsetAt text i))
        ("`" ++ String.ofList name ++ "` has no dependency array")
        "Pass a dependency array listing every value the callback reads"))

/-- Finds hooks that watch values without a list of them. -/
def missingDependencies : Checker where
  ruleId := Rule.missingDependencies.id
  appliesTo := Path.isScript
  check src :=
    .ofChecked <| (occurrences watchingCall src.masked).filterMapM fun (i, name, left) =>
      watchingHit? src.masked i name left

end CodeHealth.Check
