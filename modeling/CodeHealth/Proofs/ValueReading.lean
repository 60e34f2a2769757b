import CodeHealth.Proofs.ValuePhrases

/-!
What it means that the script parser reads a value.

A value is read in front of what may follow it. The parser stands then right behind the value and the
blanks at its end, and the tree it made says where the value starts.
-/

namespace CodeHealth.Proofs.ValueReading

open CodeHealth.Script CodeHealth.Text CodeHealth.Proofs.ScriptReading CodeHealth.Proofs.ValuePhrases

def isElement : Kind → Bool
  | .markupElement => true
  | .markupSelfClosing => true
  | _ => false

/-- A tree without elements of markup. -/
inductive Plain : Tree → Prop
  | node {k : Kind} {p : Position} {cs : List Tree} : isElement k = false → (∀ t ∈ cs, Plain t) →
      Plain (.node k p cs)

lemma Plain.isElement {t : Tree} (h : Plain t) : isElement t.kind = false := by
  cases h with
  | node hk _ => exact hk

lemma arePatterns_iff {defaults : Bool} {ts : List Tree} :
    Tree.arePatterns defaults ts = true ↔ ∀ t ∈ ts, t.isPattern defaults = true := by
  induction ts with
  | nil => simp [Tree.arePatterns]
  | cons t ts ih => simp [Tree.arePatterns, ih]

/-- A tree without elements of markup. Where `b` is set, it is a pattern. -/
structure Fits (b : Bool) (t : Tree) : Prop where
  plain : Plain t
  pattern : b = true → ∀ defaults, t.isPattern defaults = true

lemma fits_object {b : Bool} {p : Position} {ts : List Tree} (h : ∀ t ∈ ts, Fits b t) :
    Fits b (.node .object p ts) :=
  ⟨.node rfl fun t ht => (h t ht).plain,
    fun hb _ => arePatterns_iff.mpr fun t ht => (h t ht).pattern hb false⟩

/-- The marks that may follow a value. -/
def closes (rest : List Char) : Bool := rest.head?.any ([')', '\x7d', ',', ';'].contains ·)

/-- The marks that may follow a name that is no parameter. -/
def stops (rest : List Char) : Bool := rest.head?.any (['.', '(', ')', '\x7d', ',', ';'].contains ·)

lemma exists_of_closes {rest : List Char} (h : closes rest = true) :
    ∃ d cs, rest = d :: cs ∧ (d = ')' ∨ d = '\x7d' ∨ d = ',' ∨ d = ';') := by
  cases rest with
  | nil => cases h
  | cons d cs => exact ⟨d, cs, rfl, by simpa [closes] using h⟩

lemma exists_of_stops {rest : List Char} (h : stops rest = true) :
    ∃ d cs, rest = d :: cs ∧
      (d = '.' ∨ d = '(' ∨ d = ')' ∨ d = '\x7d' ∨ d = ',' ∨ d = ';') := by
  cases rest with
  | nil => cases h
  | cons d cs => exact ⟨d, cs, rfl, by simpa [stops] using h⟩

lemma stops_of_closes {rest : List Char} (h : closes rest = true) : stops rest = true := by
  obtain ⟨d, cs, rfl, rfl | rfl | rfl | rfl⟩ := exists_of_closes h <;> rfl

lemma isSolid_of_stops {rest : List Char} (h : stops rest = true) : isSolid rest = true := by
  obtain ⟨d, cs, rfl, rfl | rfl | rfl | rfl | rfl | rfl⟩ := exists_of_stops h <;> rfl

lemma endsWord_of_stops {rest : List Char} (h : stops rest = true) : endsWord rest = true := by
  obtain ⟨d, cs, rfl, rfl | rfl | rfl | rfl | rfl | rfl⟩ := exists_of_stops h <;> rfl

/-! ### Steps that find nothing -/

variable {g : Grammar} {c c' : Cursor}

lemma infixFrom_closes (h : closes c.rest = true) (hfuel : 0 < g.fuel) (p : Position) (t : Tree) :
    g.infixFrom false 0 p g.fuel t c = .ok (t, c) := by
  obtain ⟨n, hn⟩ := Nat.exists_eq_succ_of_ne_zero hfuel.ne'
  have hword : c.word = "" := word_of_endsWord (endsWord_of_stops (stops_of_closes h))
  have hoperator : binaryOperator? c.rest = none := by
    obtain ⟨d, cs, hrest, hd⟩ := exists_of_closes h
    rw [hrest]
    rcases hd with rfl | rfl | rfl | rfl <;> rfl
  have hnone : g.wordOperator false c = none := by
    rw [Grammar.wordOperator, hword]
    simp
  rw [hn, Grammar.infixFrom, bind_ok (get_eq c), hoperator]
  simp only [hnone]
  rfl

lemma choiceRest_closes (h : closes c.rest = true) (inBranch : Bool) (p : Position) (t : Tree) :
    g.choiceRest false inBranch p t c = .ok (t, c) := by
  obtain ⟨d, cs, hrest, hd⟩ := exists_of_closes h
  have hmark : (c.rest.head? == some '?') = false := by
    rw [hrest]
    rcases hd with rfl | rfl | rfl | rfl <;> rfl
  rw [Grammar.choiceRest, bind_ok (get_eq c), hmark]
  rfl

lemma assignmentRule_of_unary {t : Tree} (hword : c.word ≠ "yield") (hfuel : 0 < g.fuel)
    (h : g.unary false false c = .ok (t, c')) (hcloses : closes c'.rest = true) :
    g.assignmentRule false false c = .ok (t, c') := by
  have hlength : assignmentLength? c'.rest = none := by
    obtain ⟨d, cs, hrest, hd⟩ := exists_of_closes hcloses
    rw [hrest]
    rcases hd with rfl | rfl | rfl | rfl <;> rfl
  rw [Grammar.assignmentRule, bind_ok (get_eq c), if_neg (by simpa using hword), bind_ok h]
  split
  · rfl
  · rw [bind_ok (get_eq c'), hlength]
    dsimp only
    rw [bind_ok (infixFrom_closes hcloses hfuel c.place t)]
    exact choiceRest_closes hcloses false c.place t

lemma unary_of_primary {t : Tree} (hmark : unaryLength? c.rest = none)
    (hword : unaryWords.contains c.word = false) (h : g.primary false false c = .ok (t, c')) :
    g.unary false false c =
      if Grammar.isArrow t then .ok (t, c') else g.postfixFrom false c.place g.fuel t c' := by
  rw [Grammar.unary, bind_ok (get_eq c), hmark]
  dsimp only
  rw [hword, Bool.false_and, if_neg Bool.false_ne_true, bind_ok h]
  split <;> rfl

/-! ### Heads -/

lemma primary_object {cs : List Char} (h : c.rest = '\x7b' :: cs) :
    g.primary false false c = (do
      Script.skip 1
      return .node .object c.place (← g.commaList ['\x7d'] g.objectMember) : Parser Tree) c := by
  rw [Grammar.primary, bind_ok (get_eq c), h]
  rfl

/-- A parser passes a text and stands before the rest, with something of which `P` holds. -/
def ReadsAt {α : Type} (x : Parser α) (c : Cursor) (s rest : List Char) (P : α → Prop) : Prop :=
  ∃ a c', x c = .ok (a, c') ∧ c'.rest = rest ∧ c'.place = behind c.place s ∧ P a

/-- A parser reads a text wherever it stands before what closes a value. -/
def Reads {α : Type} (x : Parser α) (s : List Char) (P : Position → α → Prop) : Prop :=
  ∀ c rest, c.rest = s ++ rest → closes rest = true → ReadsAt x c s rest (P c.place)

/-- A parser reads a text wherever it stands before a comma or a closing mark. -/
def ReadsBefore {α : Type} (closer : Char) (x : Parser α) (s : List Char) (P : α → Prop) : Prop :=
  ∀ c rest, c.rest = s ++ rest → rest.head? = some closer ∨ rest.head? = some ',' →
    ReadsAt x c s rest P

lemma Reads.before {α : Type} {x : Parser α} {s : List Char} {P : α → Prop} {closer : Char}
    (h : Reads x s fun _ => P) (hcloser : closes [closer] = true) : ReadsBefore closer x s P := by
  intro c rest hc hrest
  refine h c rest hc ?_
  rcases hrest with hrest | hrest
  · rw [closes, hrest]
    exact hcloser
  · rw [closes, hrest]
    rfl

lemma Reads.mono {α : Type} {x : Parser α} {s : List Char} {P P' : Position → α → Prop}
    (h : Reads x s P) (hP : ∀ p a, P p a → P' p a) : Reads x s P' := by
  intro c rest hc hrest
  obtain ⟨a, c', hread, hrest', hplace', ha⟩ := h c rest hc hrest
  exact ⟨a, c', hread, hrest', hplace', hP _ _ ha⟩

section Operands

variable {gap rest : List Char}

end Operands

/-! ### What a text opens with -/

/-- Whether a text starts with a word or one of some marks. -/
def opensWith (marks s : List Char) : Bool := s.head?.any fun d => isWordStart d || marks.contains d

lemma isPrefixOf_cons_of_ne {m d : Char} (h : m ≠ d) (ms cs : List Char) :
    (m :: ms).isPrefixOf (d :: cs) = false := by
  rw [List.isPrefixOf, beq_eq_false_iff_ne.mpr h, Bool.false_and]

lemma isPrefixOf_of_opensWith {marks s : List Char} {m : Char} (h : opensWith marks s = true)
    (hm : (!isWordStart m && !marks.contains m) = true) (ms rest : List Char) :
    (m :: ms).isPrefixOf (s ++ rest) = false := by
  cases s with
  | nil => cases h
  | cons d cs =>
    refine isPrefixOf_cons_of_ne ?_ ms _
    rintro rfl
    simp only [opensWith, List.head?_cons, Option.any_some, Bool.or_eq_true] at h
    simp only [Bool.and_eq_true, Bool.not_eq_true'] at hm
    rcases h with h | h
    · rw [hm.1] at h
      cases h
    · rw [hm.2] at h
      cases h

end CodeHealth.Proofs.ValueReading
