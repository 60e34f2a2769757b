import CodeHealth.Script.Parser
import Mathlib.Data.List.Infix

/-!
What the steps of the script parser do.

A parser stands at a token. It looks at what comes next, and where it passes a token it passes the
blanks behind it as well, so that it stands at the next one. Places are counted on by what was
passed.
-/

namespace CodeHealth.Proofs.ScriptReading

open CodeHealth.Script CodeHealth.Text

/-! ### Steps -/

section Steps

variable {α β : Type} {c c' : Cursor}

lemma bind_ok {x : Parser α} {f : α → Parser β} {a : α} (h : x c = .ok (a, c')) :
    (x >>= f) c = f a c' := by
  change (x c >>= fun ac => f ac.1 ac.2) = _
  rw [h]
  rfl

end Steps

/-! ### Places -/

/-- The place behind a text that starts at a place. -/
def behind (p : Position) (s : List Char) : Position := s.foldl Position.advance p

@[simp] lemma behind_nil (p : Position) : behind p [] = p := rfl

lemma behind_cons (p : Position) (d : Char) (s : List Char) :
    behind p (d :: s) = behind (p.advance d) s := rfl

lemma behind_append (p : Position) (s t : List Char) :
    behind p (s ++ t) = behind (behind p s) t := List.foldl_append

lemma advance_append (p : Position) (s rest : List Char) :
    Cursor.advance s.length p (s ++ rest) = (behind p s, rest) := by
  induction s generalizing p with
  | nil => rfl
  | cons c s ih => exact ih (p.advance c)

/-! ### Gaps -/

/-- Whether a text starts with a token, so that no gap goes on there. -/
def isSolid : List Char → Bool
  | '/' :: '/' :: _ => false
  | '/' :: '*' :: _ => false
  | d :: _ => !isGap d
  | [] => true

/-- The cursor behind a token that ends at a place and the blanks behind it. -/
def past (p : Position) (gap rest : List Char) : Cursor :=
  ⟨rest, behind p gap, p, gap.any endsLine, []⟩

lemma isGap_of_isAsciiBlank {c : Char} (h : isAsciiBlank c = true) : isGap c = true := by
  simp only [isAsciiBlank, Bool.or_eq_true, beq_iff_eq] at h
  rcases h with (((rfl | rfl) | rfl) | rfl) | rfl <;> decide

lemma skipGap_blank {d : Char} (h : isGap d = true) (q p : Position) (newline : Bool)
    (passed : List Tree) (cs : List Char) :
    skipGap q .blank p newline passed (d :: cs) =
      skipGap q .blank (p.advance d) (newline || endsLine d) passed cs := by
  have hne : d ≠ '/' := by
    rintro rfl
    exact absurd h (by decide)
  rw [skipGap]
  · exact if_pos h
  · rintro _ rfl rfl
    exact hne rfl
  · rintro _ rfl rfl
    exact hne rfl

lemma skipGap_solid {rest : List Char} (h : isSolid rest = true) (q p : Position) (newline : Bool)
    (passed : List Tree) :
    skipGap q .blank p newline passed rest = ⟨rest, p, q, newline, passed.reverse⟩ := by
  unfold isSolid at h
  split at h
  · cases h
  · cases h
  · rename_i d cs hline hblock
    rw [skipGap]
    · exact if_neg (by simpa using h)
    · rintro cs' rfl rfl
      exact hline cs' rfl rfl
    · rintro cs' rfl rfl
      exact hblock cs' rfl rfl
  · rfl

lemma skipGap_append {gap rest : List Char} (hgap : gap.all isAsciiBlank = true)
    (hrest : isSolid rest = true) (q p : Position) (newline : Bool) :
    skipGap q .blank p newline [] (gap ++ rest) =
      ⟨rest, behind p gap, q, newline || gap.any endsLine, []⟩ := by
  induction gap generalizing p newline with
  | nil => rw [List.nil_append, skipGap_solid hrest, List.any_nil, Bool.or_false]; rfl
  | cons d gap ih =>
    rw [List.all_cons, Bool.and_eq_true] at hgap
    rw [List.cons_append, skipGap_blank (isGap_of_isAsciiBlank hgap.1), ih hgap.2, List.any_cons,
      Bool.or_assoc]
    rfl

lemma skip_eq {c : Cursor} {token gap rest : List Char} (h : c.rest = token ++ (gap ++ rest))
    (hgap : gap.all isAsciiBlank = true) (hrest : isSolid rest = true) :
    c.skip token.length = past (behind c.place token) gap rest := by
  rw [Cursor.skip, h, advance_append]
  change skipGap _ _ _ _ _ _ = _
  rw [skipGap_append hgap hrest]
  rfl

/-! ### Marks -/

section Marks

variable {c : Cursor} {mark gap rest : List Char}

lemma get_eq (c : Cursor) : (get : Parser Cursor) c = .ok (c, c) := rfl

lemma isNext_eq (mark : List Char) (c : Cursor) :
    isNext mark c = .ok (mark.isPrefixOf c.rest, c) := rfl

lemma skip_of (h : c.rest = mark ++ (gap ++ rest)) (hgap : gap.all isAsciiBlank = true)
    (hrest : isSolid rest = true) :
    Script.skip mark.length c = .ok ((), past (behind c.place mark) gap rest) := by
  change Except.ok ((), c.skip mark.length) = _
  rw [skip_eq h hgap hrest]

lemma accept_of (h : c.rest = mark ++ (gap ++ rest)) (hgap : gap.all isAsciiBlank = true)
    (hrest : isSolid rest = true) :
    accept mark c = .ok (true, past (behind c.place mark) gap rest) := by
  have hnext : mark.isPrefixOf c.rest = true :=
    List.isPrefixOf_iff_prefix.mpr ⟨_, h.symm⟩
  rw [accept, bind_ok (isNext_eq mark c), hnext, if_pos rfl, bind_ok (skip_of h hgap hrest)]
  rfl

lemma expect_of (h : c.rest = mark ++ (gap ++ rest)) (hgap : gap.all isAsciiBlank = true)
    (hrest : isSolid rest = true) :
    expect mark c = .ok ((), past (behind c.place mark) gap rest) := by
  rw [expect, bind_ok (accept_of h hgap hrest)]
  rfl

end Marks

/-! ### Words -/

def isWord : List Char → Bool
  | [] => false
  | c :: cs => isWordStart c && cs.all isWordPart

/-- Whether no word goes on at the front of a text. -/
def endsWord (rest : List Char) : Bool := rest.head?.all fun d => !isWordPart d && d != '\\'

lemma wordLengthFrom_append {w rest : List Char} (hw : w.all isWordPart = true)
    (hrest : endsWord rest = true) : wordLengthFrom 0 (w ++ rest) = w.length := by
  induction w with
  | nil =>
    cases rest with
    | nil => rfl
    | cons d rest =>
      simp only [endsWord, List.head?_cons, Option.all_some, Bool.and_eq_true, Bool.not_eq_true',
        bne_iff_ne] at hrest
      have hescape : escapeLength (d :: rest) = 0 := by
        unfold escapeLength
        split
        · rename_i heq
          exact absurd (List.cons.inj heq).1 hrest.2
        · rename_i heq
          exact absurd (List.cons.inj heq).1 hrest.2
        · rfl
      rw [List.nil_append, wordLengthFrom, hrest.1, if_neg Bool.false_ne_true, hescape]
      rfl
  | cons c w ih =>
    rw [List.all_cons, Bool.and_eq_true] at hw
    rw [List.cons_append, wordLengthFrom, if_pos hw.1, ih hw.2, List.length_cons, Nat.add_comm]

lemma word_of_endsWord {c : Cursor} (h : endsWord c.rest = true) : c.word = "" := by
  have hlength : wordLength c.rest = 0 := by
    cases hrest : c.rest with
    | nil => rfl
    | cons d ds =>
      have hfrom : wordLengthFrom 0 (d :: ds) = 0 := wordLengthFrom_append List.all_nil (hrest ▸ h)
      rw [wordLength, hfrom, ite_self]
  rw [Cursor.word, hlength]
  rfl

section Words

variable {c : Cursor} {w gap rest : List Char}

end Words

end CodeHealth.Proofs.ScriptReading
