import CodeHealth.Proofs.ByteScans
import CodeHealth.Proofs.ReplyText

/-!
Looking for an attribute in the text of a tag.

The name is found behind a blank of ASCII, and before an equals sign or the end of the tag. So an
attribute is found if it has a value or is the last one, and an expression in which the name stands
in such a place looks as if it were an attribute.
-/

namespace CodeHealth.Proofs.AttributeLookup

open CodeHealth.Text CodeHealth.Proofs.ByteScans CodeHealth.Proofs.ReplyText

/-! ### Tags -/

def tagMarks : List Char := ['<', '>', '/', '=', '"', '\'', '\x7b', '\x7d']

/-- A character of a name: it is not a blank and not a mark of a tag. -/
def isPlain (c : Char) : Bool := !isBlank c && !tagMarks.contains c

/-- The name of a tag or of an attribute. -/
structure PlainName where
  chars : List Char
  nonempty : chars ≠ []
  plain : ∀ c ∈ chars, isPlain c = true

structure Blanks where
  chars : List Char
  blank : Blank chars

structure Gap extends Blanks where
  nonempty : chars ≠ []

/-- What is written for an attribute. The text of a quotation is masked. -/
inductive AttributeForm where
  | bare (n : PlainName)
  | quoted (n : PlainName) (s : Blanks)
  | braced (n : PlainName) (e : List Char)
  | spread (e : List Char)

namespace AttributeForm

def text : AttributeForm → List Char
  | bare n => n.chars
  | quoted n s => n.chars ++ '=' :: '"' :: (s.chars ++ ['"'])
  | braced n e => n.chars ++ '=' :: '\x7b' :: (e ++ ['\x7d'])
  | spread e => '\x7b' :: '.' :: '.' :: '.' :: (e ++ ['\x7d'])

/-- The name of an attribute, unless it is a spread. -/
def name? : AttributeForm → Option (List Char)
  | bare n => some n.chars
  | quoted n _ => some n.chars
  | braced n _ => some n.chars
  | spread _ => none

/-- Whether an attribute is more than a name. -/
def hasValue : AttributeForm → Bool
  | bare _ => false
  | _ => true

def expression : AttributeForm → List Char
  | bare _ => []
  | quoted _ _ => []
  | braced _ e => e
  | spread e => e

end AttributeForm

/-- An attribute with the blanks before it. -/
structure Attribute where
  gap : Gap
  form : AttributeForm

/-- Whether an attribute is set off by a blank of ASCII. -/
def Attribute.isSetOff (a : Attribute) : Bool := a.gap.chars.getLast?.any isAsciiBlank

def attributesText (as : List Attribute) : List Char :=
  as.flatMap fun a => a.gap.chars ++ a.form.text

/-- An opening tag whose quotations are masked. -/
structure OpenTag where
  name : PlainName
  attributes : List Attribute
  trail : Blanks
  selfClosing : Bool

namespace OpenTag

def close (t : OpenTag) : List Char := t.trail.chars ++ if t.selfClosing then ['/', '>'] else ['>']

def text (t : OpenTag) : List Char :=
  '<' :: (t.name.chars ++ (attributesText t.attributes ++ t.close))

end OpenTag

/-! ### Places of a name -/

/-- Whether a text starts with a name and goes on as behind the name of an attribute. -/
def startsNamed (n t : List Char) : Bool := n.isPrefixOf t && followsName (t.drop n.length)

/-- Whether a name stands as an attribute somewhere in a text that is behind a blank of ASCII or
behind something else. -/
def shows (n : List Char) : Bool → List Char → Bool
  | _, [] => false
  | blank, c :: cs => (blank && startsNamed n (c :: cs)) || shows n (isAsciiBlank c) cs

section Places

variable {n m s rest : List Char} {b : Bool}

lemma followsName_blank {s : List Char} (h : Blank s) (t : List Char) :
    followsName (s ++ t) = followsName t := by
  rw [followsName, List.dropWhile_append_of_pos h, followsName]

lemma followsName_cons {c : Char} (h : isBlank c = false) (t : List Char) :
    followsName (c :: t) = (c == '=' || c == '/' || c == '>') := by
  rw [followsName, List.dropWhile_cons_of_neg (by rw [h]; exact Bool.false_ne_true)]

lemma followsName_plain {c : Char} (h : isPlain c = true) (t : List Char) :
    followsName (c :: t) = false := by
  rw [isPlain, Bool.and_eq_true, Bool.not_eq_true'] at h
  have hmark : c ∉ tagMarks := by simpa using h.2
  simp only [tagMarks, List.mem_cons, not_or] at hmark
  obtain ⟨-, hgreater, hslash, hequals, -⟩ := hmark
  simp [followsName_cons h.1, hgreater, hslash, hequals]

lemma followsName_equals (t : List Char) : followsName ('=' :: t) = true :=
  followsName_cons (by decide) t

lemma followsName_brace (s t : List Char) : followsName (s ++ '\x7d' :: t) = followsName s := by
  induction s with
  | nil => exact followsName_cons (by decide) t
  | cons c s ih =>
    rw [List.cons_append]
    cases hc : isBlank c with
    | false => rw [followsName_cons hc, followsName_cons hc]
    | true =>
      have hblank : Blank [c] := List.forall_mem_singleton.mpr hc
      have hskip (t : List Char) : followsName (c :: t) = followsName t :=
        followsName_blank hblank t
      rw [hskip, hskip, ih]

lemma isPlain_of_isBlank {c : Char} (h : isBlank c = true) : isPlain c = false := by
  rw [isPlain, h]
  rfl

lemma isBlank_of_isAsciiBlank {c : Char} (h : isAsciiBlank c = true) : isBlank c = true := by
  simp only [isAsciiBlank, Bool.or_eq_true, beq_iff_eq] at h
  rcases h with (((rfl | rfl) | rfl) | rfl) | rfl <;> decide

lemma not_isAsciiBlank_of_isPlain {c : Char} (h : isPlain c = true) : isAsciiBlank c = false := by
  rw [isPlain, Bool.and_eq_true, Bool.not_eq_true'] at h
  cases hc : isAsciiBlank c with
  | false => rfl
  | true => exact absurd (isBlank_of_isAsciiBlank hc) (by rw [h.1]; exact Bool.false_ne_true)

/-- The search goes on behind each place of the name, but as a name has no blanks it may as well
look everywhere. -/
lemma hasAttributeAfter_eq_shows (hne : n ≠ []) (hn : ∀ c ∈ n, isAsciiBlank c = false)
    (before : Option Char) (skip : ℕ) (t : List Char)
    (hskip : ∀ c ∈ t.take skip, isAsciiBlank c = false) :
    hasAttributeAfter n before skip t = shows n (skip == 0 && before.all isAsciiBlank) t := by
  induction t generalizing before skip with
  | nil => cases skip <;> rfl
  | cons c cs ih =>
    cases skip with
    | succ skip =>
      rw [List.take_succ_cons, List.forall_mem_cons] at hskip
      rw [hasAttributeAfter, ih (some c) skip hskip.2, shows, Option.all_some, hskip.1,
        Bool.and_false]
      rfl
    | zero =>
      rw [hasAttributeAfter, shows, startsNamed, beq_self_eq_true, Bool.true_and]
      split_ifs with hprefix
      · -- the name starts here, and no blank is among its other characters
        obtain ⟨d, ds, rfl⟩ := List.exists_cons_of_ne_nil hne
        obtain ⟨rest, hrest⟩ := List.isPrefixOf_iff_prefix.mp hprefix
        obtain ⟨rfl, rfl⟩ : d = c ∧ ds ++ rest = cs := List.cons.inj hrest
        rw [List.forall_mem_cons] at hn
        have hrestBlank : ∀ c ∈ (ds ++ rest).take ds.length, isAsciiBlank c = false := by
          rw [List.take_left]
          exact hn.2
        rw [List.length_cons, Nat.add_sub_cancel, ih (some d) ds.length hrestBlank, Option.all_some,
          hn.1, Bool.and_false, hprefix, Bool.true_and]
      · rw [Bool.not_eq_true] at hprefix
        rw [ih (some c) 0 (List.forall_mem_nil _), hprefix, Bool.false_and, Bool.and_false]
        rfl

lemma findsAttribute_eq_shows (hne : n ≠ []) (hn : ∀ c ∈ n, isAsciiBlank c = false)
    (t : List Char) : findsAttribute t n = .ok (shows n true t) := by
  rw [findsAttribute_eq hne, hasAttributeAfter_eq_shows hne hn none 0 t (List.forall_mem_nil _)]
  rfl

lemma startsNamed_iff {t : List Char} :
    startsNamed n t = true ↔ ∃ tail, t = n ++ tail ∧ followsName tail = true := by
  rw [startsNamed, Bool.and_eq_true, List.isPrefixOf_iff_prefix]
  constructor
  · rintro ⟨⟨tail, rfl⟩, hfollows⟩
    rw [List.drop_left] at hfollows
    exact ⟨tail, rfl, hfollows⟩
  · rintro ⟨tail, rfl, hfollows⟩
    exact ⟨List.prefix_append n tail, by rwa [List.drop_left]⟩

lemma startsNamed_cons (d c : Char) (t : List Char) :
    startsNamed (d :: n) (c :: t) = (d == c && startsNamed n t) := Bool.and_assoc _ _ _

/-- A name stands as an attribute at the front of a text behind a blank, or where a blank of ASCII
is before it and what may follow a name behind it. -/
lemma shows_iff (hne : n ≠ []) (t : List Char) :
    shows n b t = true ↔ b = true ∧ startsNamed n t = true ∨
      ∃ lead c tail, t = lead ++ c :: (n ++ tail) ∧ isAsciiBlank c = true ∧
        followsName tail = true := by
  induction t generalizing b with
  | nil =>
    have hempty : startsNamed n [] = false := by
      obtain ⟨d, ds, rfl⟩ := List.exists_cons_of_ne_nil hne
      rfl
    simp [shows, hempty]
  | cons c cs ih =>
    rw [shows, Bool.or_eq_true, Bool.and_eq_true, ih]
    refine or_congr_right ⟨?_, ?_⟩
    · rintro (⟨hblank, hstarts⟩ | ⟨lead, d, tail, rfl, hblank, hfollows⟩)
      · obtain ⟨tail, rfl, hfollows⟩ := startsNamed_iff.mp hstarts
        exact ⟨[], c, tail, rfl, hblank, hfollows⟩
      · exact ⟨c :: lead, d, tail, rfl, hblank, hfollows⟩
    · rintro ⟨lead, d, tail, ht, hblank, hfollows⟩
      cases lead with
      | nil =>
        obtain ⟨rfl, rfl⟩ : c = d ∧ cs = n ++ tail := List.cons.inj ht
        exact .inl ⟨hblank, startsNamed_iff.mpr ⟨tail, rfl, hfollows⟩⟩
      | cons e lead => exact .inr ⟨lead, d, tail, (List.cons.inj ht).2, hblank, hfollows⟩

/-- Through characters that are not blanks nothing is found behind the first one. -/
lemma shows_solid (hs : ∀ c ∈ s, isAsciiBlank c = false) :
    shows n false (s ++ rest) = shows n false rest := by
  induction s with
  | nil => rfl
  | cons c s ih =>
    rw [List.forall_mem_cons] at hs
    rw [List.cons_append, shows, hs.1, ih hs.2, Bool.false_and, Bool.false_or]

variable (hne : n ≠ []) (hn : ∀ c ∈ n, isPlain c = true)
include hne hn

lemma startsNamed_mark {c : Char} (hc : isPlain c = false) (t : List Char) :
    startsNamed n (c :: t) = false := by
  obtain ⟨d, ds, rfl⟩ := List.exists_cons_of_ne_nil hne
  have hdc : d ≠ c := by
    rintro rfl
    rw [hn d List.mem_cons_self] at hc
    cases hc
  rw [startsNamed, List.isPrefixOf, beq_eq_false_iff_ne.mpr hdc, Bool.false_and, Bool.false_and]

lemma shows_mark {c : Char} (hc : isPlain c = false) (t : List Char) :
    shows n b (c :: t) = shows n (isAsciiBlank c) t := by
  rw [shows, startsNamed_mark hne hn hc, Bool.and_false, Bool.false_or]

lemma shows_blank {s : List Char} (hs : Blank s) (t : List Char) :
    shows n b (s ++ t) = shows n ((s.getLast?.map isAsciiBlank).getD b) t := by
  induction s generalizing b with
  | nil => rfl
  | cons c s ih =>
    have hc : isBlank c = true := hs c List.mem_cons_self
    rw [List.cons_append, shows_mark hne hn (isPlain_of_isBlank hc),
      ih fun d hd => hs d (List.mem_cons_of_mem c hd)]
    cases s with
    | nil => rfl
    | cons d s => rw [List.getLast?_cons_cons]; rfl

end Places

def EndsName (t : List Char) : Prop := ∀ c ∈ t.head?, isPlain c = false

section Pieces

variable {n : PlainName} {s rest : List Char} {b : Bool}

lemma endsName_cons {c : Char} (h : isPlain c = false) (t : List Char) : EndsName (c :: t) := by
  intro d hd
  rwa [← Option.some.inj hd]

lemma endsName_blank (hs : Blank s) (hrest : EndsName rest) : EndsName (s ++ rest) := by
  cases s with
  | nil => exact hrest
  | cons c s => exact endsName_cons (isPlain_of_isBlank (hs c List.mem_cons_self)) _

lemma endsName_gap (g : Gap) (t : List Char) : EndsName (g.chars ++ t) := by
  obtain ⟨c, cs, hg⟩ := List.exists_cons_of_ne_nil g.nonempty
  have hc : isBlank c = true := g.blank c (hg ▸ List.mem_cons_self)
  rw [hg]
  exact endsName_cons (isPlain_of_isBlank hc) _

lemma shows_gap (g : Gap) (rest : List Char) (b : Bool) : shows n.chars b (g.chars ++ rest) =
    shows n.chars (g.chars.getLast?.any isAsciiBlank) rest := by
  rw [shows_blank n.nonempty n.plain g.blank]
  obtain ⟨s, c, hs⟩ := List.eq_nil_or_concat'  g.chars |>.resolve_left g.nonempty
  rw [hs, List.getLast?_concat]
  rfl

/-- Of a whole name in front of something else only the name itself is a start. -/
lemma startsNamed_name {n m rest : List Char} (hn : ∀ c ∈ n, isPlain c = true)
    (hm : ∀ c ∈ m, isPlain c = true) (hrest : EndsName rest) :
    startsNamed n (m ++ rest) = (m == n && followsName rest) := by
  induction n generalizing m with
  | nil =>
    cases m with
    | nil => rfl
    | cons c m =>
      exact followsName_plain (hm c List.mem_cons_self) (m ++ rest)
  | cons d n ih =>
    rw [List.forall_mem_cons] at hn
    cases m with
    | nil =>
      cases rest with
      | nil => rfl
      | cons r rest =>
        exact startsNamed_mark (List.cons_ne_nil d n) (List.forall_mem_cons.mpr hn)
          (hrest r rfl) rest
    | cons c m =>
      rw [List.forall_mem_cons] at hm
      rw [List.cons_append, startsNamed_cons, ih hn.2 hm.2, List.cons_beq_cons, ← Bool.and_assoc,
        BEq.comm (a := d)]

lemma shows_name (m : PlainName) (hrest : EndsName rest) :
    shows n.chars b (m.chars ++ rest) =
      ((b && (m.chars == n.chars && followsName rest)) || shows n.chars false rest) := by
  have hstart := startsNamed_name n.plain m.plain hrest
  have hplain := m.plain
  obtain ⟨c, cs, hm⟩ := List.exists_cons_of_ne_nil m.nonempty
  rw [hm] at hstart hplain ⊢
  rw [List.forall_mem_cons] at hplain
  have hsolid : ∀ d ∈ cs, isAsciiBlank d = false := fun d hd =>
    not_isAsciiBlank_of_isPlain (hplain.2 d hd)
  rw [List.cons_append, shows, ← List.cons_append, hstart, not_isAsciiBlank_of_isPlain hplain.1,
    shows_solid hsolid]

lemma startsNamed_brace {n : List Char} (hn : ∀ c ∈ n, isPlain c = true) (s t : List Char) :
    startsNamed n (s ++ '\x7d' :: t) = startsNamed n s := by
  have hbrace : isPlain '\x7d' = false := by decide
  induction n generalizing s with
  | nil => exact followsName_brace s t
  | cons d n ih =>
    rw [List.forall_mem_cons] at hn
    cases s with
    | nil => exact startsNamed_mark (List.cons_ne_nil d n) (List.forall_mem_cons.mpr hn) hbrace t
    | cons c s => rw [List.cons_append, startsNamed_cons, startsNamed_cons, ih hn.2]

lemma shows_expression (e rest : List Char) : shows n.chars b (e ++ '\x7d' :: rest) =
    (shows n.chars b e || shows n.chars false rest) := by
  induction e generalizing b with
  | nil => exact shows_mark n.nonempty n.plain (by decide) rest
  | cons c e ih =>
    have hstart := startsNamed_brace n.plain (c :: e) rest
    rw [List.cons_append] at hstart ⊢
    rw [shows, hstart, ih, shows, Bool.or_assoc]

end Pieces

/-! ### Attributes of a tag -/

def Attribute.isNamed (n : PlainName) (a : Attribute) : Bool := a.form.name? == some n.chars

/-- Whether a name is found in attributes: in one that is set off and has a value or is the last, or
in an expression. -/
def seen (n : PlainName) : List Attribute → Bool
  | [] => false
  | a :: as =>
    (a.isNamed n && a.isSetOff && (a.form.hasValue || as.isEmpty)) ||
      (shows n.chars false a.form.expression || seen n as)

section Attributes

variable {n : PlainName} {rest : List Char} {b : Bool}

lemma plain_head? (m : PlainName) : ∃ c cs, m.chars = c :: cs ∧ isPlain c = true := by
  obtain ⟨c, cs, hm⟩ := List.exists_cons_of_ne_nil m.nonempty
  exact ⟨c, cs, hm, m.plain c (hm ▸ List.mem_cons_self)⟩

lemma followsName_form (f : AttributeForm) (rest : List Char) :
    followsName (f.text ++ rest) = false := by
  have hname (m : PlainName) (rest : List Char) : followsName (m.chars ++ rest) = false := by
    obtain ⟨c, cs, hm, hc⟩ := plain_head? m
    rw [hm, List.cons_append, followsName_plain hc]
  cases f with
  | bare m => exact hname m rest
  | quoted m s => rw [AttributeForm.text, List.append_assoc, hname]
  | braced m e => rw [AttributeForm.text, List.append_assoc, hname]
  | spread e => exact followsName_cons (by decide) _

lemma shows_form (f : AttributeForm) (hrest : EndsName rest) :
    shows n.chars b (f.text ++ rest) =
      ((b && (f.name? == some n.chars && (f.hasValue || followsName rest))) ||
        (shows n.chars false f.expression || shows n.chars false rest)) := by
  have hmark {b : Bool} {c : Char} (hc : isPlain c = false) (t : List Char) :=
    shows_mark (b := b) n.nonempty n.plain hc t
  have hequals (t : List Char) : EndsName ('=' :: t) := endsName_cons (by decide) t
  -- no name goes on across a mark, so each part is searched on its own
  cases f with
  | bare m => exact shows_name m hrest
  | quoted m s =>
    have htext : (AttributeForm.quoted m s).text ++ rest =
        m.chars ++ '=' :: '"' :: (s.chars ++ '"' :: rest) := by
      simp [AttributeForm.text]
    rw [htext, shows_name m (hequals _), followsName_equals, hmark (by decide), hmark (by decide),
      shows_blank n.nonempty n.plain s.blank, hmark (by decide)]
    rfl
  | braced m e =>
    have htext : (AttributeForm.braced m e).text ++ rest =
        m.chars ++ '=' :: '\x7b' :: (e ++ '\x7d' :: rest) := by
      simp [AttributeForm.text]
    rw [htext, shows_name m (hequals _), followsName_equals, hmark (by decide), hmark (by decide)]
    exact congrArg _ (shows_expression e rest)
  | spread e =>
    have htext : (AttributeForm.spread e).text ++ rest =
        '\x7b' :: (['.', '.', '.'] ++ (e ++ '\x7d' :: rest)) := by
      simp [AttributeForm.text]
    have hdots : ∀ c ∈ ['.', '.', '.'], isAsciiBlank c = false := by
      intro c hc
      obtain rfl : c = '.' := by simpa using hc
      decide
    have hnone : ((AttributeForm.spread e).name? == some n.chars) = false := rfl
    have hopen : isAsciiBlank '\x7b' = false := by decide
    rw [htext, hmark (by decide), hopen, shows_solid hdots, shows_expression, hnone, Bool.false_and,
      Bool.and_false, Bool.false_or, AttributeForm.expression]

lemma endsName_close (t : OpenTag) : EndsName t.close := by
  refine endsName_blank t.trail.blank ?_
  cases t.selfClosing
  · exact endsName_cons (by decide) []
  · exact endsName_cons (by decide) ['>']

lemma followsName_close (t : OpenTag) : followsName t.close = true := by
  rw [OpenTag.close, followsName_blank t.trail.blank]
  cases t.selfClosing <;> decide

lemma shows_close (t : OpenTag) : shows n.chars b t.close = false := by
  have hmark {b : Bool} {c : Char} (hc : isPlain c = false) (t : List Char) :=
    shows_mark (b := b) n.nonempty n.plain hc t
  rw [OpenTag.close, shows_blank n.nonempty n.plain t.trail.blank]
  cases t.selfClosing
  · exact hmark (by decide) []
  · exact (hmark (by decide) ['>']).trans (hmark (by decide) [])

lemma rest_ends (t : OpenTag) (as : List Attribute) :
    EndsName (attributesText as ++ t.close) ∧
    followsName (attributesText as ++ t.close) = as.isEmpty := by
  cases as with
  | nil => exact ⟨endsName_close t, followsName_close t⟩
  | cons a as =>
    have htext : attributesText (a :: as) ++ t.close =
        a.gap.chars ++ (a.form.text ++ (attributesText as ++ t.close)) := by
      simp [attributesText]
    rw [htext, followsName_blank a.gap.blank, followsName_form]
    exact ⟨endsName_gap a.gap _, rfl⟩

lemma shows_attributes (t : OpenTag) (as : List Attribute) (b : Bool) :
    shows n.chars b (attributesText as ++ t.close) = seen n as := by
  induction as generalizing b with
  | nil => exact shows_close t
  | cons a as ih =>
    have htext : attributesText (a :: as) ++ t.close =
        a.gap.chars ++ (a.form.text ++ (attributesText as ++ t.close)) := by
      simp [attributesText]
    obtain ⟨hends, hfollows⟩ := rest_ends t as
    rw [htext, shows_gap, shows_form a.form hends, hfollows, ih, seen, Attribute.isNamed,
      Attribute.isSetOff, Bool.and_left_comm, Bool.and_assoc]

lemma findsAttribute_text (t : OpenTag) (n : PlainName) :
    findsAttribute t.text n.chars = .ok (seen n t.attributes) := by
  have hname : ∀ c ∈ t.name.chars, isAsciiBlank c = false := fun c hc =>
    not_isAsciiBlank_of_isPlain (t.name.plain c hc)
  have hopen : isAsciiBlank '<' = false := by decide
  rw [findsAttribute_eq_shows n.nonempty fun c hc => not_isAsciiBlank_of_isPlain (n.plain c hc),
    OpenTag.text, shows_mark n.nonempty n.plain (by decide), hopen, shows_solid hname,
    shows_attributes]

/-- Whether a name stands in an expression behind a blank of ASCII and before what may follow a
name. -/
def LooksNamed (n : PlainName) (e : List Char) : Prop :=
  ∃ lead c tail, e = lead ++ c :: (n.chars ++ tail) ∧ isAsciiBlank c = true ∧
    followsName tail = true

lemma shows_iff_looksNamed {e : List Char} : shows n.chars false e = true ↔ LooksNamed n e := by
  rw [shows_iff n.nonempty]
  exact or_iff_right fun h => Bool.false_ne_true h.1

/-- An attribute that is found: it is set off, and has a value or is the last one. -/
def IsFound (n : PlainName) (as : List Attribute) : Prop :=
  ∃ before a after, as = before ++ a :: after ∧ a.isNamed n = true ∧ a.isSetOff = true ∧
    (a.form.hasValue = true ∨ after = [])

lemma seen_iff (as : List Attribute) :
    seen n as = true ↔ IsFound n as ∨ ∃ a ∈ as, LooksNamed n a.form.expression := by
  induction as with
  | nil => simp [seen, IsFound]
  | cons a as ih =>
    have hfound : IsFound n (a :: as) ↔
        (a.isNamed n = true ∧ a.isSetOff = true ∧ (a.form.hasValue = true ∨ as = [])) ∨
          IsFound n as := by
      constructor
      · rintro ⟨before, d, after, heq, hd⟩
        cases before with
        | nil =>
          obtain ⟨rfl, rfl⟩ : a = d ∧ as = after := List.cons.inj heq
          exact .inl hd
        | cons e before => exact .inr ⟨before, d, after, (List.cons.inj heq).2, hd⟩
      · rintro (ha | ⟨before, d, after, rfl, hd⟩)
        · exact ⟨[], a, as, rfl, ha⟩
        · exact ⟨a :: before, d, after, rfl, hd⟩
    have hlooks : (∃ d ∈ a :: as, LooksNamed n d.form.expression) ↔
        LooksNamed n a.form.expression ∨ ∃ d ∈ as, LooksNamed n d.form.expression := by
      simp
    rw [seen, Bool.or_eq_true, Bool.or_eq_true, Bool.and_eq_true, Bool.and_eq_true, Bool.or_eq_true,
      List.isEmpty_iff, ih, shows_iff_looksNamed, hfound, hlooks, and_assoc, or_assoc]
    exact or_congr_right or_left_comm

end Attributes

/-- **An attribute is found if it is set off by a blank of ASCII and has a value or is the last one,
and seems to be found if it stands so in an expression.** The search always ends well. So the name
of an attribute before another one is overlooked if it stands alone, and a parameter of a function
with this name is taken for an attribute; where neither can be, a tag has the attribute if and only
if it is found. -/
theorem findsAttribute_iff (t : OpenTag) (n : PlainName) :
    (∃ found, findsAttribute t.text n.chars = .ok found) ∧
    (findsAttribute t.text n.chars = .ok true ↔
      IsFound n t.attributes ∨ ∃ a ∈ t.attributes, LooksNamed n a.form.expression) ∧
    ((∀ a ∈ t.attributes.dropLast, a.isNamed n = true → a.form.hasValue = true) →
      (∀ a ∈ t.attributes, a.isNamed n = true → a.isSetOff = true) →
      (∀ a ∈ t.attributes, ¬ LooksNamed n a.form.expression) →
      (findsAttribute t.text n.chars = .ok true ↔ ∃ a ∈ t.attributes, a.isNamed n = true)) := by
  have hseen : findsAttribute t.text n.chars = .ok true ↔
      IsFound n t.attributes ∨ ∃ a ∈ t.attributes, LooksNamed n a.form.expression := by
    rw [findsAttribute_text, Except.ok.injEq, seen_iff]
  refine ⟨⟨_, findsAttribute_text t n⟩, hseen, fun hvalue hsetOff hlook => ?_⟩
  rw [hseen, or_iff_left (fun ⟨a, ha, hlooks⟩ => hlook a ha hlooks)]
  constructor
  · rintro ⟨before, a, after, hattributes, hnamed, -⟩
    exact ⟨a, hattributes ▸ List.mem_append_right before List.mem_cons_self, hnamed⟩
  · rintro ⟨a, ha, hnamed⟩
    obtain ⟨before, after, hattributes⟩ := List.append_of_mem ha
    refine ⟨before, a, after, hattributes, hnamed, hsetOff a ha hnamed, ?_⟩
    rcases eq_or_ne after [] with hlast | hmore
    · exact .inr hlast
    · refine .inl (hvalue a ?_ hnamed)
      rw [hattributes, List.dropLast_append_cons, List.dropLast_cons_of_ne_nil hmore]
      exact List.mem_append_right before List.mem_cons_self

/-- The name of an image's description. -/
def altName : PlainName := ⟨"alt".toList, by decide, List.all_eq_true.mp (by decide)⟩

def imgName : PlainName := ⟨"img".toList, by decide, List.all_eq_true.mp (by decide)⟩

def dataName : PlainName := ⟨"data".toList, by decide, List.all_eq_true.mp (by decide)⟩

def space : Gap := ⟨⟨[' '], List.all_eq_true.mp (by decide)⟩, by decide⟩

/-- Attributes around a description: expressions that have its name where no name may stand, and a
name without a value as the last. -/
def describedTag : OpenTag where
  name := imgName
  attributes := [⟨space, .braced dataName " alt ".toList⟩, ⟨space, .quoted altName space.toBlanks⟩,
    ⟨space, .spread "alt".toList⟩, ⟨space, .bare dataName⟩]
  trail := space.toBlanks
  selfClosing := true

theorem findsAttribute_describedTag :
    describedTag.text = "<img data=\x7b alt \x7d alt=\" \" \x7b...alt\x7d data />".toList ∧
    (findsAttribute describedTag.text altName.chars = .ok true ↔
      ∃ a ∈ describedTag.attributes, a.isNamed altName = true) ∧
    (∃ a ∈ describedTag.attributes, a.isNamed altName = true) := by
  refine ⟨by decide, (findsAttribute_iff describedTag altName).2.2 (by decide) (by decide) ?_,
    by decide⟩
  simp only [← shows_iff_looksNamed]
  decide

/-- A name before another attribute. -/
def bareTag : OpenTag where
  name := imgName
  attributes := [⟨space, .bare altName⟩, ⟨space, .quoted dataName space.toBlanks⟩]
  trail := space.toBlanks
  selfClosing := true

/-- A parameter that is called like an attribute. -/
def arrowTag : OpenTag where
  name := imgName
  attributes := [⟨space, .braced dataName " alt => 1 ".toList⟩]
  trail := space.toBlanks
  selfClosing := true

/-- A name before another attribute is overlooked, and a parameter is taken for an attribute. -/
theorem findsAttribute_errs :
    bareTag.text = "<img alt data=\" \" />".toList ∧
    (∃ a ∈ bareTag.attributes, a.isNamed altName = true) ∧
    findsAttribute bareTag.text altName.chars = .ok false ∧
    arrowTag.text = "<img data=\x7b alt => 1 \x7d />".toList ∧
    (∀ a ∈ arrowTag.attributes, a.isNamed altName = false) ∧
    findsAttribute arrowTag.text altName.chars = .ok true := by
  refine ⟨by decide, by decide, by decide, by decide, by decide, by decide⟩

end CodeHealth.Proofs.AttributeLookup
