import CodeHealth.Path

/-!
Languages of scripts.
-/

namespace CodeHealth.Script

inductive Language where
  | typescript
  | tsx
  | javascript
deriving DecidableEq, Repr, Inhabited

namespace Language

def name : Language → String
  | .typescript => "typescript"
  | .tsx => "tsx"
  | .javascript => "javascript"

def ofName? : String → Option Language
  | "typescript" => some .typescript
  | "tsx" => some .tsx
  | "javascript" => some .javascript
  | _ => none

def ofExtension? (ext : String) : Option Language :=
  if ["ts", "mts", "cts"].contains ext then some .typescript
  else if ext = "tsx" then some .tsx
  else if ["js", "jsx", "mjs", "cjs"].contains ext then some .javascript
  else none

def ofPath? (p : Path) : Option Language := p.extension?.bind ofExtension?

def hasTypes (l : Language) : Bool := l ≠ .javascript

def hasMarkup (l : Language) : Bool := l ≠ .typescript

end Language

/-- A text that is no script, with the line where that shows. -/
structure SyntaxError where
  line : Nat
deriving DecidableEq, Repr

def SyntaxError.message (e : SyntaxError) : String :=
  "syntax error near line " ++ toString e.line

end CodeHealth.Script
