import CodeHealth.Advice.Payload
import CodeHealth.Advice.Prompt
import CodeHealth.Text.Line

/-!
Advice in prose. Where a reply holds no payload, its summary, suggestions and insights are sought
by the marks that writers use: labels and headers, bullets, sentences that recommend something, and
paragraphs.
-/

namespace CodeHealth.Advice

open Text

/-! ### Words in any letter case -/

/-- Whether a character is a small ASCII letter or differs from it in letter case alone. The long s
and the sign of the kelvin are forms of letters, too. -/
def isFormOf (letter c : Char) : Bool :=
  c == letter || c.toLower == letter || (letter == 's' && c == '\u017f') ||
    (letter == 'k' && c == '\u212a')

/-- What is left behind a word in any letter case. -/
def afterCaseless? : List Char → List Char → Option (List Char)
  | [], rest => some rest
  | _ :: _, [] => none
  | w :: ws, c :: cs => if isFormOf w c then afterCaseless? ws cs else none

/-- What is left behind the first of the words that a text starts with, in any letter case, if the
word ends there. -/
def afterWholeWord? (words : List (List Char)) (rest : List Char) : Option (List Char) :=
  words.findSome? fun w =>
    match afterCaseless? w rest with
    | some left => if left.head?.any isWordChar then none else some left
    | none => none

/-! ### Headers and labels -/

/-- A line without the marks of a header or of emphasis at its front. -/
def dropHeaderMarks (line : List Char) : List Char :=
  let line := line.dropWhile isIndent
  let line := if line.head? = some '#' then
      (line.dropWhile (· == '#')).dropWhile isIndent
    else line
  (line.dropWhile (· == '*')).dropWhile isIndent

/-- What is left of a line behind a header with one of the given words. -/
def afterHeader? (words : List (List Char)) (line : List Char) : Option (List Char) :=
  afterWholeWord? words (dropHeaderMarks line)

def summaryWords : List (List Char) :=
  ["summary".toList, "overview".toList, "overall assessment".toList]

def suggestionWords : List (List Char) :=
  ["suggestions".toList, "recommendations".toList, "next steps".toList]

def insightWords : List (List Char) :=
  ["insights".toList, "observations".toList, "key findings".toList]

/-- What stands behind a label in its line: emphasis and a colon belong to the label. -/
def dropLabelMarks (rest : List Char) : List Char :=
  let rest := ((rest.dropWhile isIndent).dropWhile (· == '*')).dropWhile isIndent
  let rest := (dropOne ':' rest).dropWhile isIndent
  (rest.dropWhile (· == '*')).dropWhile isIndent

/-! ### Bullets and paragraphs -/

/-- What stands behind the mark of a bullet: a dash, a star, a dot, or a number. -/
def afterBulletMark? : List Char → Option (List Char)
  | [] => none
  | c :: cs =>
    if c = '-' ∨ c = '*' ∨ c = '\u2022' then some cs
    else if isDecimalDigit c then
      match cs.dropWhile isDecimalDigit with
      | d :: ds => if d = '.' ∨ d = ')' then some ds else none
      | [] => none
    else none

/-- The text of a bullet, which is set off from the mark. Of blanks alone the last one is the
text. -/
def bullet? (line : List Char) : Option (List Char) :=
  match afterBulletMark? (line.dropWhile isIndent) with
  | none => none
  | some rest =>
    match rest.takeWhile isIndent, rest.dropWhile isIndent with
    | [], _ => none
    | _ :: blanks, [] => blanks.getLast?.map fun c => [c]
    | _ :: _, item => some item

/-- A text without the marks of strong emphasis, two stars each. -/
def dropStrong : List Char → List Char
  | '*' :: '*' :: cs => dropStrong cs
  | c :: cs => c :: dropStrong cs
  | [] => []

/-- A text without marks of strong emphasis and without blanks around it. -/
def clean (text : List Char) : List Char := trim (dropStrong text)

/-- Lines without blanks around them in one line. -/
def joinLines : List (List Char) → List Char
  | [] => []
  | [l] => l
  | l :: ls => l ++ ' ' :: joinLines ls

/-- The paragraphs of lines, after the lines `current`, in reverse, of a paragraph that goes on. -/
def paragraphsFrom (current : List (List Char)) : List (List Char) → List (List Char)
  | [] => if current.isEmpty then [] else [joinLines current.reverse]
  | l :: ls =>
    if isBlankText l then
      if current.isEmpty then paragraphsFrom [] ls
      else joinLines current.reverse :: paragraphsFrom [] ls
    else paragraphsFrom (trim l :: current) ls

/-- The paragraphs of a text, each in one line. Blank lines part them. -/
def paragraphs (text : List Char) : List (List Char) := paragraphsFrom [] (lines text)

/-- Whether a paragraph is running text: no bullet, header or fence. -/
def isProse (paragraph : List Char) : Bool :=
  (bullet? paragraph).isNone && paragraph.head? != some '#' && !fence.isPrefixOf paragraph &&
    (afterHeader? suggestionWords paragraph).isNone

/-! ### The summary -/

/-- What stands behind the first label of a summary: in its line, and below. -/
def afterSummaryLabel? : List (List Char) → Option (List Char × List (List Char))
  | [] => none
  | l :: ls =>
    match afterHeader? summaryWords l with
    | some rest => some (clean (dropLabelMarks rest), ls)
    | none => afterSummaryLabel? ls

/-- Pieces of a text with the line feeds that were between them. -/
def joinPieces : List (List Char) → List Char
  | [] => []
  | [p] => p
  | p :: ps => p ++ '\n' :: joinPieces ps

/-- The summary that has a label: in the line of the label, or the next running text. -/
def labelledSummary? (text : List Char) : Option (List Char) :=
  match afterSummaryLabel? (pieces text) with
  | some (inline, below) =>
    if inline.isEmpty then (paragraphs (joinPieces below)).find? isProse else some inline
  | none => none

def maxSummary : Nat := 500

/-- The summary of a text: one that has a label, the first running text of some length, or the text
itself. -/
def proseSummary (text : List Char) : List Char :=
  let summary := ((labelledSummary? text).or
    ((paragraphs text).find? fun p => 20 ≤ p.length && isProse p)).getD (trim text)
  truncate maxSummary (clean summary)

/-! ### Lists -/

/-- The bullets of lines up to the first other text behind a bullet. -/
def leadingBullets (found : Bool) : List (List Char) → List (List Char)
  | [] => []
  | l :: ls =>
    match bullet? l with
    | some item => clean item :: leadingBullets true ls
    | none => if found && !isBlankText l then [] else leadingBullets found ls

/-- The lines behind the first header with one of the given words. -/
def linesBelowHeader (words : List (List Char)) (ls : List (List Char)) : List (List Char) :=
  (ls.dropWhile fun l => (afterHeader? words l).isNone).drop 1

/-- The bullets below the first header with one of the given words. -/
def bulletsBelow (words : List (List Char)) (text : List Char) : List (List Char) :=
  leadingBullets false (linesBelowHeader words (lines text))

def allBullets (text : List Char) : List (List Char) :=
  ((lines text).filterMap fun l => (bullet? l).map clean).filter fun item => !item.isEmpty

/-! ### An array in the text -/

/-- Reads the name of an array of suggestions, up to its opening bracket. -/
def arrayStart : Recogniser Unit := fun _ rest =>
  let rest := dropOne '"' rest
  match afterCaseless? "suggestions".toList rest with
  | some rest =>
    ((afterMark? ':' (dropOne '"' rest)).bind (afterMark? '[')).map ((), ·)
  | none => none

/-- What stands behind the first name of an array of suggestions. -/
def afterArrayStart? : List Char → Option (List Char)
  | [] => none
  | c :: cs =>
    match arrayStart none (c :: cs) with
    | some (_, rest) => some rest
    | none => afterArrayStart? cs

/-- The text between quotes, up to the closing one; a character behind a backslash does not close
it, and a line feed may not stand behind a backslash. Gives the text as it is written, and what is
left. -/
def quotedText? : List Char → Option (List Char × List Char)
  | [] => none
  | '\\' :: c :: cs =>
    if c = '\n' then none else (quotedText? cs).map fun (t, rest) => ('\\' :: c :: t, rest)
  | c :: cs =>
    if c = '"' then some ([], cs)
    else if c = '\\' then none
    else (quotedText? cs).map fun (t, rest) => (c :: t, rest)

def quotedItem : Recogniser (List Char) := fun _ rest =>
  match rest with
  | '"' :: cs => quotedText? cs
  | _ => none

/-- A text with its escaped quotes as they are meant. -/
def unescapeQuotes : List Char → List Char
  | '\\' :: '"' :: cs => '"' :: unescapeQuotes cs
  | c :: cs => c :: unescapeQuotes cs
  | [] => []

/-- The texts in quotes in the first array of suggestions. -/
def arrayItems (text : List Char) : List (List Char) :=
  match (afterArrayStart? text).bind (splitAtMark? [']']) with
  | some (body, _) =>
    ((occurrences quotedItem body).map fun (_, t) => trim (unescapeQuotes t)).filter
      fun t => !t.isEmpty
  | none => []

/-! ### Sentences -/

def adviceWords : List (List Char) :=
  ["recommend".toList, "suggest".toList, "consider".toList, "should".toList]

/-- Whether a word that recommends something starts in a text that comes after `before`. -/
def hasAdviceAfter : Option Char → List Char → Bool
  | _, [] => false
  | before, c :: cs =>
    (!before.any isWordChar && adviceWords.any fun w => (afterCaseless? w (c :: cs)).isSome) ||
      hasAdviceAfter (some c) cs

/-- The sentences of a text after the characters `current`, in reverse. A sentence ends with a mark
in its own line. -/
def sentencesFrom (current : List Char) : List Char → List (List Char)
  | [] => []
  | c :: cs =>
    if c = '.' ∨ c = '!' ∨ c = '?' then (c :: current).reverse :: sentencesFrom [] cs
    else if c = '\n' then sentencesFrom [] cs
    else sentencesFrom (c :: current) cs

/-- The sentences that recommend something, unless they are very short. -/
def adviceSentences (text : List Char) : List (List Char) :=
  (((sentencesFrom [] text).filter (hasAdviceAfter none)).map clean).filter
    fun s => 15 ≤ s.length

/-! ### Suggestions and insights -/

/-- What is suggested if nothing else is. -/
def genericSuggestion : List Char :=
  "Review the reported findings and fix the highest-severity issues first.".toList

def firstNonEmpty {α : Type} : List (List α) → List α
  | [] => []
  | xs :: rest => if xs.isEmpty then firstNonEmpty rest else xs

/-- The suggestions of a text: an array, bullets below a header, any bullets, sentences that
recommend something, or the first paragraphs of some length. -/
def proseSuggestions (text : List Char) : List (List Char) :=
  firstNonEmpty
    [arrayItems text, bulletsBelow suggestionWords text, allBullets text, adviceSentences text,
      ((paragraphs text).filter fun p => 40 < p.length).take 3, [genericSuggestion]]

/-- The insights of a text: bullets below a header, or the summary. -/
def proseInsights (text : List Char) : List (List Char) :=
  firstNonEmpty [bulletsBelow insightWords text, [proseSummary text]]

end CodeHealth.Advice
