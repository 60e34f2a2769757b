import CodeHealth.Proofs.ScriptReading

/-!
Values as they are written.

A value is a name, an object or a value in round brackets, with accesses and calls behind it, or an
arrow function whose parameters are patterns. Blanks may stand behind every token; they belong to the
token before them. Items and members are written with commas between them, and one may stand behind
the last.
-/

namespace CodeHealth.Proofs.ValuePhrases

open CodeHealth.Script CodeHealth.Text CodeHealth.Proofs.ScriptReading

/-- Blanks between two tokens, if there are any. -/
structure Layout where
  chars : List Char
  blank : chars.all isAsciiBlank = true

structure Word where
  chars : List Char
  word : isWord chars = true

/-- A word that names a variable wherever it stands. -/
structure Name extends Word where
  free : isName (String.ofList chars) = true
  plain : ["yield", "async", "await"].contains (String.ofList chars) = false

inductive Part where
  | value
  /-- A value that does not start with a brace, as the body of an arrow function must not. -/
  | body
  /-- What is done with what stands before: accesses and calls. -/
  | suffixes
  | item
  | items
  | member
  | members

/-- What is written, with the blanks behind each token. -/
inductive Phrase : Part → Type
  | object (g : Layout) (ms : Phrase .members) (g' : Layout) (ss : Phrase .suffixes) : Phrase .value
  | other (b : Phrase .body) : Phrase .value
  | name (x : Name) (g : Layout) (ss : Phrase .suffixes) : Phrase .body
  | round (g : Layout) (v : Phrase .value) (g' : Layout) (ss : Phrase .suffixes) : Phrase .body
  /-- An arrow function with one parameter that has no brackets. -/
  | shortArrow (x : Name) (g : Layout) (hg : g.chars.any endsLine = false) (g' : Layout)
      (b : Phrase .body) : Phrase .body
  | arrow (g : Layout) (ps : Phrase .items) (g' : Layout) (hg' : g'.chars.any endsLine = false)
      (g'' : Layout) (b : Phrase .body) : Phrase .body
  | noSuffix : Phrase .suffixes
  | access (g : Layout) (w : Word) (g' : Layout) (ss : Phrase .suffixes) : Phrase .suffixes
  | call (g : Layout) (is : Phrase .items) (g' : Layout) (ss : Phrase .suffixes) : Phrase .suffixes
  | value (v : Phrase .value) : Phrase .item
  | spread (g : Layout) (v : Phrase .value) : Phrase .item
  | noItem : Phrase .items
  | lastItem (i : Phrase .item) : Phrase .items
  | nextItem (i : Phrase .item) (g : Layout) (is : Phrase .items) : Phrase .items
  | pair (w : Word) (g g' : Layout) (v : Phrase .value) : Phrase .member
  /-- A member that is called like the variable with its value. -/
  | same (x : Name) (g : Layout) : Phrase .member
  | spreadMember (g : Layout) (v : Phrase .value) : Phrase .member
  | noMember : Phrase .members
  | lastMember (m : Phrase .member) : Phrase .members
  | nextMember (m : Phrase .member) (g : Layout) (ms : Phrase .members) : Phrase .members

def Phrase.text : {p : Part} → Phrase p → List Char
  | _, object g ms g' ss => '\x7b' :: (g.chars ++ (ms.text ++ '\x7d' :: (g'.chars ++ ss.text)))
  | _, other b => b.text
  | _, name x g ss => x.chars ++ (g.chars ++ ss.text)
  | _, round g v g' ss => '(' :: (g.chars ++ (v.text ++ ')' :: (g'.chars ++ ss.text)))
  | _, shortArrow x g _ g' b => x.chars ++ (g.chars ++ '=' :: '>' :: (g'.chars ++ b.text))
  | _, arrow g ps g' _ g'' b =>
    '(' :: (g.chars ++ (ps.text ++ ')' :: (g'.chars ++ '=' :: '>' :: (g''.chars ++ b.text))))
  | _, noSuffix => []
  | _, access g w g' ss => '.' :: (g.chars ++ (w.chars ++ (g'.chars ++ ss.text)))
  | _, call g is g' ss => '(' :: (g.chars ++ (is.text ++ ')' :: (g'.chars ++ ss.text)))
  | _, value v => v.text
  | _, spread g v => '.' :: '.' :: '.' :: (g.chars ++ v.text)
  | _, noItem => []
  | _, lastItem i => i.text
  | _, nextItem i g is => i.text ++ ',' :: (g.chars ++ is.text)
  | _, pair w g g' v => w.chars ++ (g.chars ++ ':' :: (g'.chars ++ v.text))
  | _, same x g => x.chars ++ g.chars
  | _, spreadMember g v => '.' :: '.' :: '.' :: (g.chars ++ v.text)
  | _, noMember => []
  | _, lastMember m => m.text
  | _, nextMember m g ms => m.text ++ ',' :: (g.chars ++ ms.text)

/-! ### Patterns -/

/-- Whether a phrase is read as a pattern, or as parts of one. Behind what stands before, which is a
pattern if `front` is set, only an access makes a pattern again. -/
def Phrase.isPattern : {p : Part} → Bool → Phrase p → Bool
  | _, _, object _ ms _ ss => ss.isPattern (ms.isPattern false)
  | _, _, other b => b.isPattern false
  | _, _, name _ _ ss => ss.isPattern true
  | _, _, round _ _ _ ss => ss.isPattern false
  | _, _, shortArrow .. => false
  | _, _, arrow .. => false
  | _, front, noSuffix => front
  | _, _, access _ _ _ ss => ss.isPattern true
  | _, _, call _ _ _ ss => ss.isPattern false
  | _, _, value v => v.isPattern false
  | _, _, spread _ v => v.isPattern false
  | _, _, noItem => true
  | _, _, lastItem i => i.isPattern false
  | _, _, nextItem i _ is => i.isPattern false && is.isPattern false
  | _, _, pair _ _ _ v => v.isPattern false
  | _, _, same .. => true
  | _, _, spreadMember _ v => v.isPattern false
  | _, _, noMember => true
  | _, _, lastMember m => m.isPattern false
  | _, _, nextMember m _ ms => m.isPattern false && ms.isPattern false

/-- Whether the parameters of all arrow functions in a phrase are patterns. -/
def Phrase.isSound : {p : Part} → Phrase p → Bool
  | _, object _ ms _ ss => ms.isSound && ss.isSound
  | _, other b => b.isSound
  | _, name _ _ ss => ss.isSound
  | _, round _ v _ ss => v.isSound && ss.isSound
  | _, shortArrow _ _ _ _ b => b.isSound
  | _, arrow _ ps _ _ _ b => ps.isPattern false && (ps.isSound && b.isSound)
  | _, noSuffix => true
  | _, access _ _ _ ss => ss.isSound
  | _, call _ is _ ss => is.isSound && ss.isSound
  | _, value v => v.isSound
  | _, spread _ v => v.isSound
  | _, noItem => true
  | _, lastItem i => i.isSound
  | _, nextItem i _ is => i.isSound && is.isSound
  | _, pair _ _ _ v => v.isSound
  | _, same .. => true
  | _, spreadMember _ v => v.isSound
  | _, noMember => true
  | _, lastMember m => m.isSound
  | _, nextMember m _ ms => m.isSound && ms.isSound

/-- A value in which arrow functions take patterns. -/
structure Value where
  phrase : Phrase .value
  sound : phrase.isSound = true

instance : CoeOut Value (Phrase .value) := ⟨Value.phrase⟩

/-! ### Characters of values -/

end CodeHealth.Proofs.ValuePhrases
