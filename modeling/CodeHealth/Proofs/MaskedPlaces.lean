import CodeHealth.Proofs.LinePlaces
import CodeHealth.Text.Masking
import Mathlib.Data.List.Chain
import Mathlib.Data.List.Forall2

/-!
Masking keeps every place.

A character is kept or becomes a space, and line feeds are neither lost nor made, so the two texts
break into lines alike and a place in one is the same place in the other, however many bytes the
hidden characters had. What opens a comment is always hidden: where a slash is kept, the next
character is neither a slash nor a star, and it can only be kept or become a space.
-/

namespace CodeHealth.Proofs.MaskedPlaces

open CodeHealth.Text CodeHealth.Proofs.LinePlaces CodeHealth.Proofs.TextLines

/-- A character of the masked text for a character of the text. -/
def Masks (c m : Char) : Prop := (m = c ∨ m = ' ') ∧ (m = '\n' ↔ c = '\n')

/-- Two characters that stand side by side and open no comment. -/
def Apart (a b : Char) : Prop := a = '/' → b ≠ '/' ∧ b ≠ '*'

def Entered : Region → Prop
  | .quoted q => isQuote q = true
  | _ => True

/-! ### Characters -/

lemma masks_self (c : Char) : Masks c c := ⟨Or.inl rfl, Iff.rfl⟩

lemma masks_space {c : Char} (h : c ≠ '\n') : Masks c ' ' := ⟨Or.inr rfl, by simp [h]⟩

lemma masks_hide (c : Char) : Masks c (hide c) := by
  unfold hide
  split
  case isTrue h => exact h ▸ masks_self c
  case isFalse h => exact masks_space h

lemma masks_maskFrom (r : Region) (cs : List Char) : List.Forall₂ Masks cs (maskFrom r cs) := by
  fun_induction maskFrom r cs with
  | case1 => exact .nil
  | case2 cs ih | case3 cs ih | case6 cs ih =>
    exact .cons (masks_space (by decide)) (.cons (masks_space (by decide)) ih)
  | case4 c cs _ _ ih => exact .cons (masks_self c) ih
  | case5 c cs ih | case7 c cs _ ih | case11 _ c cs _ _ _ ih => exact .cons (masks_hide c) ih
  | case8 => exact .cons (masks_space (by decide)) .nil
  | case9 _ c cs ih => exact .cons (masks_space (by decide)) (.cons (masks_hide c) ih)
  | case10 c cs _ _ ih => exact .cons (masks_self c) ih

lemma masks_mask (cs : List Char) : List.Forall₂ Masks cs (mask cs) := masks_maskFrom .code cs

/-! ### Bytes -/

lemma byteLength_le_of_masks {cs ms : List Char} (h : List.Forall₂ Masks cs ms) :
    byteLength ms ≤ byteLength cs := by
  induction h with
  | nil => exact le_rfl
  | @cons c m cs ms hcm _ ih =>
    have hc := c.utf8Size_pos
    have hm : m.utf8Size ≤ c.utf8Size := by
      rcases hcm.1 with rfl | rfl
      · exact le_rfl
      · exact hc
    rw [byteLength_cons, byteLength_cons]
    omega

lemma byteLength_mask_le (cs : List Char) : byteLength (mask cs) ≤ byteLength cs :=
  byteLength_le_of_masks (masks_mask cs)

/-! ### Places -/

lemma foldl_advance_congr {cs ms : List Char} (h : List.Forall₂ Masks cs ms) (p : Position) :
    ms.foldl Position.advance p = cs.foldl Position.advance p := by
  induction h generalizing p with
  | nil => rfl
  | @cons c m cs ms hcm _ ih =>
    have hstep : p.advance m = p.advance c := by simp only [Position.advance, hcm.2]
    rw [List.foldl_cons, List.foldl_cons, hstep, ih]

lemma ofIndex_mask (cs : List Char) (k : ℕ) :
    Position.ofIndex (mask cs) k = Position.ofIndex cs k :=
  foldl_advance_congr (List.forall₂_take k (masks_mask cs)) .start

/-! ### Lines -/

lemma forall₂_pieces_of_masks {cs ms : List Char} (h : List.Forall₂ Masks cs ms) :
    List.Forall₂ (fun p q => p.length = q.length) (pieces cs) (pieces ms) := by
  induction h with
  | nil => exact .cons rfl .nil
  | @cons c m cs ms hcm _ ih =>
    rw [pieces, pieces]
    by_cases hc : c = '\n'
    · rw [if_pos hc, if_pos (hcm.2.mpr hc)]
      exact .cons rfl ih
    · obtain ⟨p, ps, hp⟩ := List.exists_cons_of_ne_nil (pieces_ne_nil cs)
      obtain ⟨q, qs, hq⟩ := List.exists_cons_of_ne_nil (pieces_ne_nil ms)
      rw [hp, hq, List.forall₂_cons] at ih
      rw [if_neg hc, if_neg (mt hcm.2.mp hc), hp, hq]
      exact .cons (congrArg Nat.succ ih.1) ih.2

lemma length_lines_mask (cs : List Char) : (lines (mask cs)).length = (lines cs).length :=
  (length_linesOfPieces_congr (forall₂_pieces_of_masks (masks_mask cs))).symm

lemma exists_cons_of_append_break {cs more ds : List Char} {d : Char} (hd : d ≠ '\n')
    (h : cs ++ '\n' :: more = d :: ds) : ∃ cs', cs = d :: cs' := by
  cases cs with
  | nil => exact absurd (List.cons.inj h).1.symm hd
  | cons c cs => exact ⟨cs, by rw [(List.cons.inj h).1]⟩

lemma exists_maskFrom_break (r : Region) :
    ∃ r', ∀ more, maskFrom r ('\n' :: more) = '\n' :: maskFrom r' more := by
  cases r with
  | code => exact ⟨.code, fun more => by simp [maskFrom, isQuote]⟩
  | lineComment => exact ⟨.code, fun more => by simp [maskFrom, hide]⟩
  | blockComment => exact ⟨.blockComment, fun more => by simp [maskFrom, hide]⟩
  | quoted q =>
    by_cases hq : '\n' = q
    · exact ⟨.code, fun more => by subst hq; simp [maskFrom]⟩
    · exact ⟨if q ≠ '`' then .code else .quoted q, fun more => by simp [maskFrom, hq, hide]⟩

lemma maskFrom_code_break {c : Char} {cs : List Char}
    (hline : ∀ ds, c = '/' → cs = '/' :: ds → False)
    (hblock : ∀ ds, c = '/' → cs = '*' :: ds → False) (more : List Char) :
    maskFrom .code (c :: (cs ++ '\n' :: more)) =
      c :: maskFrom (if isQuote c then .quoted c else .code) (cs ++ '\n' :: more) := by
  rw [maskFrom]
  · intro ds hc hds
    obtain ⟨cs', rfl⟩ := exists_cons_of_append_break (by decide) hds
    exact hline cs' hc rfl
  · intro ds hc hds
    obtain ⟨cs', rfl⟩ := exists_cons_of_append_break (by decide) hds
    exact hblock cs' hc rfl

lemma maskFrom_quoted_cons {quote c : Char} (hc : c ≠ '\\') (cs : List Char) :
    maskFrom (.quoted quote) (c :: cs) = if c = quote then c :: maskFrom .code cs
      else hide c :: maskFrom (if c = '\n' ∧ quote ≠ '`' then .code else .quoted quote) cs := by
  rw [maskFrom]
  · exact fun heq => absurd heq hc
  · exact fun _ _ heq => absurd heq hc

lemma ne_escape {c : Char} {cs : List Char} (hlast : c = '\\' → cs = [] → False)
    (hescape : ∀ d ds, c = '\\' → cs = d :: ds → False) : c ≠ '\\' := by
  intro hc
  cases cs with
  | nil => exact hlast hc rfl
  | cons d ds => exact hescape d ds hc rfl

lemma exists_maskFrom_append (r : Region) (cs : List Char) :
    ∃ r', ∀ more, maskFrom r (cs ++ '\n' :: more) = maskFrom r cs ++ '\n' :: maskFrom r' more := by
  -- the region behind the break does not depend on what follows
  fun_induction maskFrom r cs with
  | case1 r => exact exists_maskFrom_break r
  | case8 q => exact ⟨.quoted q, fun more => by simp [maskFrom, hide]⟩
  | case2 cs ih | case3 cs ih | case6 cs ih | case9 _ _ cs ih =>
    obtain ⟨r', hr'⟩ := ih
    exact ⟨r', fun more => by simp [maskFrom, hr']⟩
  | case4 c cs hline hblock ih =>
    obtain ⟨r', hr'⟩ := ih
    refine ⟨r', fun more => ?_⟩
    rw [List.cons_append, maskFrom_code_break hline hblock, hr', List.cons_append]
  | case5 c cs ih =>
    obtain ⟨r', hr'⟩ := ih
    exact ⟨r', fun more => by rw [List.cons_append, maskFrom, hr', List.cons_append]⟩
  | case7 c cs hends ih =>
    obtain ⟨r', hr'⟩ := ih
    refine ⟨r', fun more => ?_⟩
    rw [List.cons_append, maskFrom, hr', List.cons_append]
    intro ds hc hds
    obtain ⟨cs', rfl⟩ := exists_cons_of_append_break (by decide) hds
    exact hends cs' hc rfl
  | case10 c cs hlast hescape ih | case11 q c cs hlast hescape hc ih =>
    obtain ⟨r', hr'⟩ := ih
    refine ⟨r', fun more => ?_⟩
    rw [List.cons_append, maskFrom_quoted_cons (ne_escape hlast hescape)]
    simp [*]

/-! ### Comments -/

lemma apart_of_ne {a : Char} (h : a ≠ '/') (b : Char) : Apart a b := fun ha => absurd ha h

lemma apart_hide (a b : Char) : Apart (hide a) b := by
  refine apart_of_ne ?_ b
  unfold hide
  split <;> decide

lemma Masks.apart {a c m : Char} (hcm : Masks c m) (h : Apart a c) : Apart a m := by
  intro ha
  rcases hcm.1 with rfl | rfl
  · exact h ha
  · decide

lemma exists_head_of_masks {cs ms : List Char} (h : List.Forall₂ Masks cs ms) {m : Char}
    (hm : m ∈ ms.head?) : ∃ c ∈ cs.head?, Masks c m := by
  cases h with
  | nil => cases hm
  | @cons c n cs ms hcn _ =>
    obtain rfl : n = m := by simpa using hm
    exact ⟨c, rfl, hcn⟩

lemma entered_opened (c : Char) : Entered (if isQuote c = true then .quoted c else .code) := by
  split
  case isTrue h => exact h
  case isFalse => trivial

lemma ne_slash_of_isQuote {c : Char} (h : isQuote c = true) : c ≠ '/' := by
  rintro rfl
  exact absurd h (by decide)

lemma apart_maskFrom (r : Region) (hr : Entered r) (cs : List Char) :
    (maskFrom r cs).IsChain Apart := by
  have hspace (b : Char) : Apart ' ' b := apart_of_ne (by decide) b
  fun_induction maskFrom r cs with
  | case1 => exact .nil
  | case2 cs ih | case3 cs ih | case6 cs ih =>
    exact .cons_cons (hspace _) (.cons (ih trivial) fun _ _ => hspace _)
  | case4 c cs hline hblock ih =>
    -- a slash may be kept, and then it matters what masks the next character
    refine .cons (ih (entered_opened c)) fun m hm => ?_
    obtain ⟨d, hd, hdm⟩ := exists_head_of_masks (masks_maskFrom _ cs) hm
    refine hdm.apart fun hslash => ⟨?_, ?_⟩
    · rintro rfl
      exact hline _ hslash (List.eq_cons_of_mem_head? hd)
    · rintro rfl
      exact hblock _ hslash (List.eq_cons_of_mem_head? hd)
  | case5 c cs ih =>
    refine .cons (ih ?_) fun _ _ => apart_hide c _
    split <;> trivial
  | case7 c cs _ ih => exact .cons (ih trivial) fun _ _ => apart_hide c _
  | case8 => exact .singleton _
  | case9 _ c cs ih => exact .cons_cons (hspace _) (.cons (ih hr) fun _ _ => apart_hide c _)
  | case10 c cs _ _ ih =>
    exact .cons (ih trivial) fun _ _ => apart_of_ne (ne_slash_of_isQuote hr) _
  | case11 q c cs _ _ _ ih =>
    refine .cons (ih ?_) fun _ _ => apart_hide c _
    split
    · trivial
    · exact hr

lemma not_infix_of_isChain {cs : List Char} (h : cs.IsChain Apart) :
    ¬ ['/', '/'] <:+: cs ∧ ¬ ['/', '*'] <:+: cs := by
  constructor
  · intro hin
    have hpair := List.IsChain.infix h hin
    exact (hpair.rel rfl).1 rfl
  · intro hin
    have hpair := List.IsChain.infix h hin
    exact (hpair.rel rfl).2 rfl

/-- A text in which nothing starts a string or a comment is not masked at all. -/
lemma mask_of_plain {cs : List Char} (hquote : ∀ c ∈ cs, isQuote c = false)
    (hline : ¬ ['/', '/'] <:+: cs) (hblock : ¬ ['/', '*'] <:+: cs) : mask cs = cs := by
  induction cs with
  | nil => rfl
  | cons c cs ih =>
    obtain ⟨hc, hcs⟩ := List.forall_mem_cons.mp hquote
    have hrest : mask cs = cs :=
      ih hcs (fun h => hline (List.infix_cons h)) fun h => hblock (List.infix_cons h)
    have hstep : maskFrom .code (c :: cs) = c :: maskFrom .code cs := by
      rw [maskFrom, hc, if_neg Bool.false_ne_true]
      · rintro ds rfl rfl
        exact hline (List.prefix_append ['/', '/'] ds).isInfix
      · rintro ds rfl rfl
        exact hblock (List.prefix_append ['/', '*'] ds).isInfix
    rw [mask, hstep, ← mask, hrest]

/-- **Masking keeps every place.** The masked text has as many characters as the text, each of them
kept or a space, and its line feeds where the text has them; so an offset between two characters
leads to the same line and column in both. No comment is opened in it, and a text with neither
strings nor comments stays as it is. -/
theorem mask_keeps_places (cs : List Char) :
    (mask cs).length = cs.length ∧
    (∀ (k : ℕ) (c : Char), cs[k]? = some c → ∃ m, (mask cs)[k]? = some m ∧ (m = c ∨ m = ' ') ∧
      (m = '\n' ↔ c = '\n')) ∧
    (∀ k, ∃ p, placeAt (mask cs) (offsetAt (mask cs) k) = .ok p ∧
      placeAt cs (offsetAt cs k) = .ok p) ∧
    (¬ ['/', '/'] <:+: mask cs ∧ ¬ ['/', '*'] <:+: mask cs) ∧
    ((∀ c ∈ cs, isQuote c = false) → ¬ ['/', '/'] <:+: cs → ¬ ['/', '*'] <:+: cs →
      mask cs = cs) := by
  refine ⟨length_mask cs, fun k c hc => ?_, fun k => ?_,
    not_infix_of_isChain (apart_maskFrom .code trivial cs), mask_of_plain⟩
  · obtain ⟨hlen, hmasks⟩ := List.forall₂_iff_get.mp (masks_mask cs)
    obtain ⟨hk, rfl⟩ := List.getElem?_eq_some_iff.mp hc
    have hm : k < (mask cs).length := hlen ▸ hk
    exact ⟨(mask cs)[k], List.getElem?_eq_getElem hm, hmasks k hk hm⟩
  · exact ⟨_, by rw [placeAt_offsetAt, ofIndex_mask], placeAt_offsetAt cs k⟩

/-- Characters of three and four bytes are hidden, and so are openers of comments. -/
theorem mask_keeps_places_wide :
    let text := "x = '€//'/*😀*/;\ny".toList
    let plain := "a / b\n".toList
    mask text = "x = '   '     ;\ny".toList ∧ byteLength (mask text) < byteLength text ∧
    (∃ p, placeAt (mask text) (offsetAt (mask text) 16) = .ok p ∧
      placeAt text (offsetAt text 16) = .ok p) ∧
    (∀ c ∈ plain, isQuote c = false) ∧ ¬ ['/', '/'] <:+: plain ∧ ¬ ['/', '*'] <:+: plain ∧
    mask plain = plain := by
  intro text plain
  have hquote : ∀ c ∈ plain, isQuote c = false := by simp [plain, isQuote]
  have hline : ¬ ['/', '/'] <:+: plain := by decide
  have hblock : ¬ ['/', '*'] <:+: plain := by decide
  exact ⟨by decide +kernel, by decide +kernel, (mask_keeps_places text).2.2.1 16, hquote, hline,
    hblock, (mask_keeps_places plain).2.2.2.2 hquote hline hblock⟩

end CodeHealth.Proofs.MaskedPlaces
