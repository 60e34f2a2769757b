import CodeHealth.Text.Checked
import CodeHealth.Word

/-!
Lines and positions. A line ends with a line feed or with a carriage return and a line feed, and the
ends do not belong to the lines. Lines and columns are told as numbers of 32 bits, counted from one.
-/

namespace CodeHealth.Text

/-- The pieces of a text between its line feeds. There is always one. -/
def pieces : List Char → List (List Char)
  | [] => [[]]
  | c :: cs =>
    if c = '\n' then [] :: pieces cs
    else match pieces cs with
      | [] => [[c]]
      | p :: ps => (c :: p) :: ps

theorem pieces_ne_nil (cs : List Char) : pieces cs ≠ [] := by
  cases cs with
  | nil => simp [pieces]
  | cons c cs =>
    rw [pieces]
    split
    · simp
    · split <;> simp

/-- A line without the carriage return that belongs to its end. -/
def dropReturn (line : List Char) : List Char :=
  if line.getLast? = some '\r' then line.dropLast else line

/-- The lines that the pieces stand for: the last piece ended without a line feed, and is no line
if it is empty. -/
def linesOfPieces : List (List Char) → List (List Char)
  | [] => []
  | [last] => if last.isEmpty then [] else [last]
  | p :: ps => dropReturn p :: linesOfPieces ps

def lines (cs : List Char) : List (List Char) := linesOfPieces (pieces cs)

def numberedLines (cs : List Char) : List (Nat × List Char) :=
  (lines cs).zipIdx.map fun (line, i) => (Word.ordinal32 i, line)

/-- A place in a text, counted from one. -/
structure Position where
  line : Nat
  column : Nat
deriving DecidableEq, Repr, Inhabited

namespace Position

def start : Position := ⟨1, 1⟩

/-- The place behind one more character. -/
def advance (p : Position) (c : Char) : Position :=
  if c = '\n' then ⟨p.line + 1, 1⟩ else ⟨p.line, p.column + 1⟩

end Position

/-- The column of a byte offset in a line. An offset behind the line stands at its end; an offset
inside a character is read as the end, too. -/
def columnAt (line : List Char) (offset : Nat) : Nat :=
  match splitAtByte (min offset (byteLength line)) line with
  | some (before, _) => Word.ordinal32 before.length
  | none => Word.ordinal32 line.length

/-! ### Places by an index of the lines -/

/-- Where the lines behind the first one start, in a text that starts at a byte offset. -/
def lineStartsFrom : Nat → List Char → List Nat
  | _, [] => []
  | offset, c :: cs =>
    if c = '\n' then (offset + 1) :: lineStartsFrom (offset + 1) cs
    else lineStartsFrom (offset + c.utf8Size) cs

/-- The byte offsets at which the lines of a text start. -/
def lineStarts (text : List Char) : List Nat := 0 :: lineStartsFrom 0 text

/-- Where a number stands in an ascending list, or else where it would have to be inserted. -/
def search (xs : List Nat) (n : Nat) : Except Nat Nat :=
  match xs.idxOf? n with
  | some i => .ok i
  | none => .error (xs.countP (· < n))

/-- The index of the line that holds a byte offset, given where the lines start. -/
def lineOf (starts : List Nat) (offset : Nat) : Nat :=
  match search starts offset with
  | .ok i => i
  | .error i => i - 1

/-- The place of a byte offset in a text, found by the starts of the lines. -/
def placeAt (text : List Char) (offset : Nat) : Checked Position := do
  let starts := lineStarts text
  let line := lineOf starts offset
  let start ← readAt starts line
  let rest ← sliceFrom start text
  let inLine ← minus offset start
  pure ⟨Word.ordinal32 line, columnAt (rest.takeWhile (· != '\n')) inLine⟩

end CodeHealth.Text
