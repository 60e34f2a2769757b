/-!
Blanking of comments and of the contents of string literals. Every hidden character becomes one
space and line feeds stay, so each line of the masked text has the length of the line it came from.
The quotes themselves stay. A string in single or double quotes ends with its line at the latest; a
template may span lines.
-/

namespace CodeHealth.Text

inductive Region where
  | code
  | lineComment
  | blockComment
  | quoted (quote : Char)
deriving DecidableEq, Repr

/-- A hidden character: a line feed stays, all else becomes a space. -/
def hide (c : Char) : Char := if c = '\n' then '\n' else ' '

/-- Whether a character opens a string literal or a template. -/
def isQuote (c : Char) : Bool := c == '"' || c == '\'' || c == '`'

/-- Masks a text that starts inside the given region. -/
def maskFrom : Region → List Char → List Char
  | _, [] => []
  | .code, '/' :: '/' :: cs => ' ' :: ' ' :: maskFrom .lineComment cs
  | .code, '/' :: '*' :: cs => ' ' :: ' ' :: maskFrom .blockComment cs
  | .code, c :: cs => c :: maskFrom (if isQuote c then .quoted c else .code) cs
  | .lineComment, c :: cs =>
    hide c :: maskFrom (if c = '\n' then .code else .lineComment) cs
  | .blockComment, '*' :: '/' :: cs => ' ' :: ' ' :: maskFrom .code cs
  | .blockComment, c :: cs => hide c :: maskFrom .blockComment cs
  | .quoted _, ['\\'] => [' ']
  | .quoted q, '\\' :: c :: cs => ' ' :: hide c :: maskFrom (.quoted q) cs
  | .quoted q, c :: cs =>
    if c = q then c :: maskFrom .code cs
    else hide c :: maskFrom (if c = '\n' ∧ q ≠ '`' then .code else .quoted q) cs

/-- The text with comments and the contents of strings blanked. -/
def mask (cs : List Char) : List Char := maskFrom .code cs

theorem length_maskFrom (r : Region) (cs : List Char) : (maskFrom r cs).length = cs.length := by
  fun_induction maskFrom r cs <;> simp_all

@[simp] theorem length_mask (cs : List Char) : (mask cs).length = cs.length :=
  length_maskFrom .code cs

end CodeHealth.Text
