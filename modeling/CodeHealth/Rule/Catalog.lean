import CodeHealth.Severity

/-!
The catalog of rules: one table that settles which rules there are, what they are called, how much
a violation weighs by default, and which options each rule understands.
-/

namespace CodeHealth.Rule

structure Entry where
  id : String
  name : String
  description : String
  severity : Severity
  category : String
  /-- The names of the options that the rule understands. -/
  options : List String
deriving DecidableEq, Repr

/-! ### The rules -/

def missingKey : Entry where
  id := "react-missing-key"
  name := "Missing key in list rendering"
  description := "Elements returned from .map() need a stable `key` prop so React can reconcile " ++
    "the list."
  severity := .error
  category := "correctness"
  options := []

def conditionalHook : Entry where
  id := "react-hooks-conditional"
  name := "Hook called conditionally"
  description := "Hooks must be called in the same order on every render; never inside " ++
    "conditions or loops."
  severity := .error
  category := "react-hooks"
  options := []

def missingDependencies : Entry where
  id := "react-hooks-missing-deps"
  name := "Hook without dependency array"
  description := "useEffect/useMemo/useCallback without a dependency array re-run on every render."
  severity := .warning
  category := "react-hooks"
  options := []

def explicitAny : Entry where
  id := "no-explicit-any"
  name := "Explicit any"
  description := "`any` disables type checking for everything it touches."
  severity := .warning
  category := "type-safety"
  options := []

def suppression : Entry where
  id := "ts-ignore-comment"
  name := "TypeScript suppression comment"
  description := "@ts-ignore and @ts-nocheck hide real type errors."
  severity := .warning
  category := "type-safety"
  options := []

def nonNullAssertion : Entry where
  id := "non-null-assertion"
  name := "Non-null assertion"
  description := "The `!` postfix operator tells the compiler to trust a value that may be null."
  severity := .info
  category := "type-safety"
  options := []

def imageAlt : Entry where
  id := "img-missing-alt"
  name := "Image without alt text"
  description := "Images need an `alt` attribute for screen readers."
  severity := .warning
  category := "accessibility"
  options := []

def clickKeyboard : Entry where
  id := "click-without-keyboard"
  name := "Click handler without keyboard handler"
  description := "Non-interactive elements with onClick should also handle keyboard events."
  severity := .info
  category := "accessibility"
  options := []

def inlineHandler : Entry where
  id := "inline-jsx-handler"
  name := "Inline function in JSX prop"
  description := "Inline arrow functions in event props are re-created on every render."
  severity := .info
  category := "performance"
  options := []

def largeComponent : Entry where
  id := "large-component"
  name := "Large component"
  description := "Components longer than the configured line budget are hard to read and " ++
    "re-render as a unit."
  severity := .info
  category := "performance"
  options := ["max_lines"]

def consoleCall : Entry where
  id := "no-console"
  name := "Console statement"
  description := "console.* calls left in application code."
  severity := .info
  category := "best-practices"
  options := ["allow"]

def varDeclaration : Entry where
  id := "no-var"
  name := "var declaration"
  description := "`var` is function-scoped and hoisted; use let or const."
  severity := .warning
  category := "best-practices"
  options := []

def looseEquality : Entry where
  id := "loose-equality"
  name := "Loose equality"
  description := "== and != perform type coercion; use === and !==."
  severity := .warning
  category := "correctness"
  options := ["allow_null"]

/-- All rules in the order in which they are listed. -/
def catalog : List Entry :=
  [missingKey, conditionalHook, missingDependencies, explicitAny, suppression, nonNullAssertion,
    imageAlt, clickKeyboard, inlineHandler, largeComponent, consoleCall, varDeclaration,
    looseEquality]

def find? (id : String) : Option Entry := catalog.find? fun r => r.id = id

def isKnown (id : String) : Bool := (find? id).isSome

/-- The categories of the rules, in alphabetical order. -/
def categories : List String :=
  ["accessibility", "best-practices", "correctness", "performance", "react-hooks", "type-safety"]

theorem category_mem_categories : ∀ r ∈ catalog, r.category ∈ categories := by decide

end CodeHealth.Rule
