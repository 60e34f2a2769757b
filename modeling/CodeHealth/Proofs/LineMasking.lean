import CodeHealth.Proofs.MaskedPlaces

/-!
Masking line by line.

Only a template, an escape and a block comment reach over a line feed. In a text without them the
masking stands in code again behind every line feed, whatever the line before left open.
-/

namespace CodeHealth.Proofs.LineMasking

open CodeHealth.Text CodeHealth.Proofs.MaskedPlaces CodeHealth.Proofs.TextLines

/-! ### Lines with their ends -/

/-- The lines that the pieces between line feeds stand for, each with the line feed that ends it.
What stands behind the last line feed is no line if it is empty. -/
def endedLinesOfPieces : List (List Char) → List (List Char)
  | [] => []
  | [last] => if last.isEmpty then [] else [last]
  | p :: ps => (p ++ ['\n']) :: endedLinesOfPieces ps

/-- The lines of a text, with the line feeds that end them. -/
def endedLines (text : List Char) : List (List Char) := endedLinesOfPieces (pieces text)

lemma endedLines_of_notMem {p : List Char} (h : '\n' ∉ p) :
    endedLines p = if p.isEmpty then [] else [p] := by
  rw [endedLines, pieces_of_notMem h, endedLinesOfPieces]

lemma endedLines_append_break {p : List Char} (h : '\n' ∉ p) (t : List Char) :
    endedLines (p ++ '\n' :: t) = (p ++ ['\n']) :: endedLines t := by
  rw [endedLines, pieces_append_break h, endedLinesOfPieces, endedLines]
  exact fun hnil => pieces_ne_nil t hnil

lemma flatten_endedLines (text : List Char) : (endedLines text).flatten = text := by
  induction text using byLines with
  | last p hp =>
    rw [endedLines_of_notMem hp]
    split_ifs with hempty
    · exact (List.isEmpty_iff.mp hempty).symm
    · exact List.flatten_singleton
  | more p t hp ih =>
    rw [endedLines_append_break hp, List.flatten_cons, ih, List.append_assoc,
      List.singleton_append]

/-! ### What ends with its line -/

/-- Nothing in a text reaches over a line feed: it holds no template, no escape and no block
comment. -/
structure LineBound (cs : List Char) : Prop where
  template : '`' ∉ cs
  escape : '\\' ∉ cs
  comment : ¬ ['/', '*'] <:+: cs

lemma LineBound.part {cs ds : List Char} (h : LineBound cs) (hds : ds <:+: cs) : LineBound ds :=
  ⟨fun hmem => h.template (hds.subset hmem), fun hmem => h.escape (hds.subset hmem),
    fun hcomment => h.comment (hcomment.trans hds)⟩

/-- What the masking can be inside of and leaves at the end of the line. -/
def EndsWithLine : Region → Prop
  | .code | .lineComment => True
  | .blockComment => False
  | .quoted quote => quote ≠ '`'

lemma endsWithLine_opened {c : Char} (h : c ≠ '`') :
    EndsWithLine (if isQuote c = true then .quoted c else .code) := by
  split
  · exact h
  · trivial

lemma maskFrom_break {r : Region} (hr : EndsWithLine r) (more : List Char) :
    maskFrom r ('\n' :: more) = '\n' :: mask more := by
  cases r with
  | code => simp [maskFrom, isQuote, mask]
  | lineComment => simp [maskFrom, hide, mask]
  | blockComment => exact hr.elim
  | quoted quote =>
    have hquote : quote ≠ '`' := hr
    rw [maskFrom_quoted_cons (by decide)]
    by_cases h : '\n' = quote
    · rw [if_pos h, mask]
    · rw [if_neg h, if_pos ⟨rfl, hquote⟩, mask]
      rfl

lemma maskFrom_append_break {r : Region} {cs : List Char} (hr : EndsWithLine r) (hcs : LineBound cs)
    (more : List Char) : maskFrom r (cs ++ '\n' :: more) = maskFrom r cs ++ '\n' :: mask more := by
  have htail {c : Char} {cs : List Char} (h : LineBound (c :: cs)) : LineBound cs :=
    h.part (List.suffix_cons c cs).isInfix
  -- a line leaves no comment, template or escape open, and no quote outlives its break
  fun_induction maskFrom r cs with
  | case1 r => exact maskFrom_break hr more
  | case2 cs ih =>
    rw [List.cons_append, List.cons_append, maskFrom, ih trivial (htail (htail hcs))]
    rfl
  | case3 cs => exact absurd ⟨[], cs, rfl⟩ hcs.comment
  | case4 c cs hline hblock ih =>
    have hc : c ≠ '`' := fun heq => hcs.template (heq ▸ List.mem_cons_self)
    rw [List.cons_append, maskFrom_code_break hline hblock,
      ih (endsWithLine_opened hc) (htail hcs)]
    rfl
  | case5 c cs ih =>
    rw [List.cons_append, maskFrom, ih (by split <;> trivial) (htail hcs)]
    rfl
  | case6 | case7 => exact hr.elim
  | case8 => exact absurd List.mem_cons_self hcs.escape
  | case9 => exact absurd List.mem_cons_self hcs.escape
  | case10 c cs hlast hescape ih =>
    rw [List.cons_append, maskFrom_quoted_cons (ne_escape hlast hescape), if_pos rfl,
      ih trivial (htail hcs)]
    rfl
  | case11 quote c cs hlast hescape hc ih =>
    have hnext : EndsWithLine (if c = '\n' ∧ quote ≠ '`' then .code else .quoted quote) := by
      split
      · trivial
      · exact hr
    rw [List.cons_append, maskFrom_quoted_cons (ne_escape hlast hescape), if_neg hc,
      ih hnext (htail hcs)]
    rfl

lemma mask_append_break {lead rest : List Char} (h : LineBound lead) :
    mask (lead ++ '\n' :: rest) = mask lead ++ '\n' :: mask rest := by
  have hcode : EndsWithLine .code := trivial
  exact maskFrom_append_break hcode h rest

lemma mask_eq_flatMap {text : List Char} (h : LineBound text) :
    mask text = (endedLines text).flatMap mask := by
  induction text using byLines with
  | last p hp =>
    rw [endedLines_of_notMem hp]
    split_ifs with hempty
    · rw [List.isEmpty_iff.mp hempty]
      rfl
    · rw [List.flatMap_cons, List.flatMap_nil, List.append_nil]
  | more p t hp ih =>
    have hline : LineBound p := h.part (List.prefix_append p _).isInfix
    have hrest : LineBound t := h.part ⟨p ++ ['\n'], [], by simp⟩
    have hended : mask (p ++ ['\n']) = mask p ++ ['\n'] := mask_append_break hline
    rw [endedLines_append_break hp, List.flatMap_cons, ← ih hrest, hended, mask_append_break hline,
      List.append_assoc, List.singleton_append]

/-- **Damage of masking ends with the line.** A text without templates, escapes and block comments
is masked line by line. So what is left open before a line feed, such as a string behind a lone
apostrophe, hides nothing of what stands behind it. -/
theorem mask_lines {text : List Char} (htemplate : '`' ∉ text) (hescape : '\\' ∉ text)
    (hcomment : ¬ "/*".toList <:+: text) :
    (endedLines text).flatten = text ∧ mask text = (endedLines text).flatMap mask ∧
      ∀ lead rest, text = lead ++ '\n' :: rest → mask text = mask lead ++ '\n' :: mask rest := by
  have hbound : LineBound text := ⟨htemplate, hescape, hcomment⟩
  refine ⟨flatten_endedLines text, mask_eq_flatMap hbound, ?_⟩
  rintro lead rest rfl
  exact mask_append_break (hbound.part (List.prefix_append lead _).isInfix)

/-- A lone apostrophe, and a comment that holds one, too. -/
def apostrophes : List Char := "<p>Don't use var x</p>\nlet y = '1'; // don't\nlet z".toList

theorem mask_lines_apostrophes :
    '`' ∉ apostrophes ∧ '\\' ∉ apostrophes ∧ ¬ "/*".toList <:+: apostrophes ∧
    mask apostrophes = mask "<p>Don't use var x</p>\n".toList ++
      "let y = ' ';         \nlet z".toList := by
  have htemplate : '`' ∉ apostrophes := by decide
  have hescape : '\\' ∉ apostrophes := by decide
  have hcomment : ¬ "/*".toList <:+: apostrophes := by decide
  have hlines := (mask_lines htemplate hescape hcomment).2.1
  refine ⟨htemplate, hescape, hcomment, hlines.trans ?_⟩
  decide

end CodeHealth.Proofs.LineMasking
