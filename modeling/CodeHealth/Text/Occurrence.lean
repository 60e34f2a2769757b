import CodeHealth.Text.Checked
import CodeHealth.Text.Classes

/-!
Recognisers and their occurrences. A recogniser looks at a place of a text, at the character before
it and at the characters that follow, and either reads something there or refuses. The occurrences
of a recogniser are what it reads from left to right, each starting where the one before ended or
later.
-/

namespace CodeHealth.Text

/-- Reads a value at a place, given the character before it; gives the value and what is left. -/
abbrev Recogniser (α : Type) := Option Char → List Char → Option (α × List Char)

/-- The occurrences in a text that starts at index `index` after the character `before`. The first
`skip` characters belong to the last occurrence. Occurrences are expected to be longer than
nothing. -/
def occurrencesFrom {α : Type} (r : Recogniser α) :
    Option Char → Nat → Nat → List Char → List (Nat × α)
  | _, _, _, [] => []
  | _, index, skip + 1, c :: cs => occurrencesFrom r (some c) (index + 1) skip cs
  | before, index, 0, c :: cs =>
    match r before (c :: cs) with
    | some (a, rest) =>
      (index, a) :: occurrencesFrom r (some c) (index + 1) (cs.length - rest.length) cs
    | none => occurrencesFrom r (some c) (index + 1) 0 cs

/-- The occurrences of a recogniser in a text, each with the index of its first character. -/
def occurrences {α : Type} (r : Recogniser α) (text : List Char) : List (Nat × α) :=
  occurrencesFrom r none 0 0 text

/-- What is left of a text behind a given word. -/
def afterWord? (word : List Char) : List Char → Option (List Char)
  | rest =>
    if word.isPrefixOf rest then some (rest.drop word.length) else none

/-- The byte offsets at which a word stands in a text. The places do not overlap. -/
def offsetsOf (word text : List Char) : List Nat :=
  (occurrences (fun _ rest => (afterWord? word rest).map ((), ·)) text).map fun (i, _) =>
    offsetAt text i

/-- What is left behind the first of the words that a text starts with, and that word. -/
def afterAnyOf? (words : List (List Char)) (rest : List Char) : Option (List Char × List Char) :=
  words.findSome? fun w => (afterWord? w rest).map (w, ·)

def skipBlanks (rest : List Char) : List Char := rest.dropWhile isBlank

/-- What is left behind at least one blank. -/
def afterBlanks? : List Char → Option (List Char)
  | [] => none
  | c :: cs => if isBlank c then some (skipBlanks cs) else none

/-- What is left behind optional blanks and the given character. -/
def afterMark? (mark : Char) (rest : List Char) : Option (List Char) :=
  match skipBlanks rest with
  | c :: cs => if c = mark then some cs else none
  | [] => none

/-- Whether a word ends or starts between a character and the text after it. -/
def atBoundary (before : Option Char) (rest : List Char) : Bool :=
  before.any isWordChar != rest.head?.any isWordChar

/-- The word that stands at the front of a text, and what is left behind it. -/
def spanWord (rest : List Char) : List Char × List Char := rest.span isWordChar

/-- Whether one of the given words stands in a text that comes after `before`, as a whole word. -/
def hasWordAfter (words : List (List Char)) : Option Char → List Char → Bool
  | _, [] => false
  | before, c :: cs =>
    (!before.any isWordChar && isWordChar c && words.contains (spanWord (c :: cs)).1) ||
      hasWordAfter words (some c) cs

/-- Whether one of the given words stands in a text as a whole word. -/
def hasWord (words : List (List Char)) (text : List Char) : Bool := hasWordAfter words none text

/-- A text without blanks at its end. -/
def trimRight (cs : List Char) : List Char := (cs.reverse.dropWhile isBlank).reverse

/-- A text without blanks at its front and its end. -/
def trim (cs : List Char) : List Char := trimRight (cs.dropWhile isBlank)

/-- Whether a text holds nothing but blanks. -/
def isBlankText (cs : List Char) : Bool := cs.all isBlank

/-- The string without blanks at its front and its end. -/
def trimmed (s : String) : String := String.ofList (trim s.toList)

/-- Whether a string holds nothing but blanks. -/
def isBlankString (s : String) : Bool := isBlankText s.toList

end CodeHealth.Text
