import CodeHealth.Script.Language
import CodeHealth.Script.Tree
import CodeHealth.Text.Classes

/-!
Places in a script from which reading goes on. A cursor stands at the start of a token or at the
end of the script; what lies between tokens, blanks and comments, has been passed, and the cursor
remembers whether it held the end of a line, and the comments.
-/

namespace CodeHealth.Script

open Text

structure Cursor where
  rest : List Char
  place : Position
  /-- Where the token before ended. -/
  behind : Position
  /-- Whether a line ended since the token before. -/
  newline : Bool
  /-- The comments since the token before. -/
  comments : List Tree
deriving Inhabited

def endsLine (c : Char) : Bool := c == '\n' || c == '\r' || c == '\u2028' || c == '\u2029'

/-- Characters that part tokens beside white space: the byte order mark, the word joiner and the
space of no width. -/
def invisible : List Char := ['\ufeff', '\u2060', '\u200b']

/-- Whether a character parts tokens. -/
def isGap (c : Char) : Bool := isBlank c || invisible.contains c

/-- What lies between two tokens. A block comment remembers its start, since one that does not end
is a token that nothing accepts. -/
inductive Gap where
  | blank
  | lineComment
  | blockComment (opening : List Char) (place : Position)

def commentAt (p : Position) : Tree := .node .comment p []

/-- The cursor at the next token. The comments that were passed come in reverse. -/
def skipGap (behind : Position) : Gap → Position → Bool → List Tree → List Char → Cursor
  | .blank, p, newline, passed, '/' :: '/' :: cs =>
    skipGap behind .lineComment ⟨p.line, p.column + 2⟩ newline (commentAt p :: passed) cs
  | .blank, p, newline, passed, '/' :: '*' :: cs =>
    skipGap behind (.blockComment ('/' :: '*' :: cs) p) ⟨p.line, p.column + 2⟩ newline passed cs
  | .blank, p, newline, passed, c :: cs =>
    if isGap c then skipGap behind .blank (p.advance c) (newline || endsLine c) passed cs
    else ⟨c :: cs, p, behind, newline, passed.reverse⟩
  | .lineComment, p, newline, passed, c :: cs =>
    if endsLine c then skipGap behind .blank (p.advance c) true passed cs
    else skipGap behind .lineComment (p.advance c) newline passed cs
  | .blockComment _ start, p, newline, passed, '*' :: '/' :: cs =>
    skipGap behind .blank ⟨p.line, p.column + 2⟩ newline (commentAt start :: passed) cs
  | .blockComment opening start, p, newline, passed, c :: cs =>
    skipGap behind (.blockComment opening start) (p.advance c) (newline || endsLine c) passed cs
  | .blockComment opening start, _, newline, passed, [] =>
    ⟨opening, start, behind, newline, passed.reverse⟩
  | _, p, newline, passed, [] => ⟨[], p, behind, newline, passed.reverse⟩

namespace Cursor

/-- The cursor at the first token of a text that starts at the given place. -/
def atToken (p : Position) (text : List Char) : Cursor := skipGap p .blank p false [] text

/-- The place and the text behind a number of characters. -/
def advance : Nat → Position → List Char → Position × List Char
  | 0, p, cs => (p, cs)
  | _, p, [] => (p, [])
  | n + 1, p, c :: cs => advance n (p.advance c) cs

/-- The cursor right behind the next `n` characters, be it inside a token or not. -/
def skipBare (c : Cursor) (n : Nat) : Cursor :=
  let (p, rest) := advance n c.place c.rest
  ⟨rest, p, p, false, []⟩

/-- The cursor at the token behind the next `n` characters. -/
def skip (c : Cursor) (n : Nat) : Cursor :=
  let (p, rest) := advance n c.place c.rest
  atToken p rest

def isEnd (c : Cursor) : Bool := c.rest.isEmpty

/-- The error of a token that does not fit here. At the end of the script the token before is what
lacks something. -/
def error (c : Cursor) : SyntaxError :=
  ⟨if c.isEnd then c.behind.line else c.place.line⟩

end Cursor

/-- The first line of a script may name the program that runs it; what is left of the script. -/
def dropShebang : List Char → List Char
  | '#' :: '!' :: cs => cs.dropWhile fun c => !endsLine c
  | cs => cs

def Cursor.ofScript (text : List Char) : Cursor :=
  let rest := dropShebang text
  let (p, rest) := advance (text.length - rest.length) .start text
  .atToken p rest

end CodeHealth.Script
