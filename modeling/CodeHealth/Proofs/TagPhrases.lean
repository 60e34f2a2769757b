import CodeHealth.Proofs.ValuePhrases

/-!
Tags as they are written.

A tag without content has a name, whose words have points or colons between them, and attributes.
Behind the name and behind every attribute stands a blank at least.
-/

namespace CodeHealth.Proofs.TagPhrases

open CodeHealth.Script CodeHealth.Text CodeHealth.Proofs.ScriptReading
  CodeHealth.Proofs.ValuePhrases

/-- Whether a text is a word of the name of a tag, or the name of an attribute. -/
def isTagWord : List Char → Bool
  | [] => false
  | c :: cs => isWordStart c && cs.all isTagPart

/-- What a text starts with that may stand in a name of the script. -/
def frontWord (cs : List Char) : List Char := cs.takeWhile isWordPart

structure Separator extends Layout where
  nonempty : chars ≠ []

structure TagWord where
  chars : List Char
  word : isTagWord chars = true

/-- A further word of the name of a tag, with the point or the colon before it. -/
structure MoreWord extends TagWord where
  mark : Char
  marks : (mark == '.' || mark == ':') = true

/-- The name of an attribute: a word, and perhaps a second one behind a colon. With the word
`extends` behind the name of a tag, the tag would be taken for the parameters of a generic
function. -/
structure AttributeName extends TagWord where
  free : frontWord chars ≠ "extends".toList
  second : Option TagWord

/-- A text in quotes in which every character stands for itself, by the rules of scripts, too. -/
structure Quotation where
  quote : Char
  chars : List Char
  quotes : (quote == '"' || quote == '\'') = true
  plain : chars.all (fun c => c != quote && c != '\\' && c != '\n') = true

/-- What an attribute is, without the blanks behind it. -/
inductive AttributeCore where
  | bare (n : AttributeName)
  | quoted (n : AttributeName) (g g' : Layout) (q : Quotation)
  | braced (n : AttributeName) (g g' g'' : Layout) (v : Value)
  | spread (g g' : Layout) (v : Value)

/-- An attribute and the blanks behind it. -/
structure Attribute where
  core : AttributeCore
  gap : Separator

structure Tag where
  first : TagWord
  more : List MoreWord
  gap : Separator
  attributes : List Attribute

/-- What stands behind the first word of the name of an attribute. -/
def secondText : Option TagWord → List Char
  | none => []
  | some w => ':' :: w.chars

def AttributeName.text (n : AttributeName) : List Char := n.chars ++ secondText n.second

def Quotation.text (q : Quotation) : List Char := q.quote :: (q.chars ++ [q.quote])

def bracedText (g : Layout) (v : Phrase .value) : List Char :=
  '\x7b' :: (g.chars ++ (v.text ++ ['\x7d']))

/-- A value in braces whose properties are spread. -/
def spreadText (g g' : Layout) (v : Phrase .value) : List Char :=
  '\x7b' :: (g.chars ++ '.' :: '.' :: '.' :: (g'.chars ++ (v.text ++ ['\x7d'])))

def AttributeCore.text : AttributeCore → List Char
  | bare n => n.text
  | quoted n g g' q => n.text ++ (g.chars ++ '=' :: (g'.chars ++ q.text))
  | braced n g g' g'' v => n.text ++ (g.chars ++ '=' :: (g'.chars ++ bracedText g'' v))
  | spread g g' v => spreadText g g' v

/-- The text of an attribute with the blanks behind it. -/
def Attribute.text (a : Attribute) : List Char := a.core.text ++ a.gap.chars

/-- The text of the words of a name behind the first. -/
def wordsText (ws : List MoreWord) : List Char := ws.flatMap fun w => w.mark :: w.chars

def attributesText (as : List Attribute) : List Char := as.flatMap Attribute.text

/-- The text of a tag between its angle brackets. -/
def Tag.inner (t : Tag) : List Char :=
  t.first.chars ++ (wordsText t.more ++ (t.gap.chars ++ (attributesText t.attributes ++ ['/'])))

def Tag.text (t : Tag) : List Char := '<' :: (t.inner ++ ['>'])

/-! ### Masked texts -/

/-- The text in quotes with blanks for its characters. -/
def Quotation.masked (q : Quotation) : List Char :=
  q.quote :: (List.replicate q.chars.length ' ' ++ [q.quote])

/-- The text of an attribute with blanks for what stands in quotes. -/
def AttributeCore.masked : AttributeCore → List Char
  | quoted n g g' q => n.text ++ (g.chars ++ '=' :: (g'.chars ++ q.masked))
  | a => a.text

/-- The masked text of an attribute with the blanks behind it. -/
def Attribute.masked (a : Attribute) : List Char := a.core.masked ++ a.gap.chars

/-- The masked text of a tag behind its first character. -/
def Tag.maskedInner (t : Tag) : List Char :=
  t.first.chars ++ (wordsText t.more ++ (t.gap.chars ++
    (t.attributes.flatMap Attribute.masked ++ ['/', '>'])))

/-- The text of a tag with blanks for what stands in quotes. -/
def Tag.masked (t : Tag) : List Char := '<' :: t.maskedInner

end CodeHealth.Proofs.TagPhrases
