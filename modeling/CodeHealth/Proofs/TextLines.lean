import CodeHealth.Text.Line
import Mathlib.Data.List.Infix

/-!
Lines of a text, and the places of its characters.

Places are counted without a bound, from character to character; what is told is what of the two
numbers fits 32 bits. A text without a line feed is one piece, and a line feed parts the piece before
it from the pieces of what follows.
-/

namespace CodeHealth.Text.Position

/-- The place behind a text. -/
def after (before : List Char) : Position := before.foldl advance start

lemma after_snoc (cs : List Char) (c : Char) : after (cs ++ [c]) = (after cs).advance c := by
  simp [after]

/-- The place of the character with the given index. -/
def ofIndex (text : List Char) (i : ℕ) : Position := after (text.take i)

/-- What of a place fits 32 bits. -/
def narrow (p : Position) : Position := ⟨p.line % Word.bound32, p.column % Word.bound32⟩

/-- Both numbers of a place fit 32 bits. -/
def Fits (p : Position) : Prop := p.line < Word.bound32 ∧ p.column < Word.bound32

instance (p : Position) : Decidable p.Fits := inferInstanceAs (Decidable (_ ∧ _))

lemma Fits.narrow_eq {p : Position} (h : p.Fits) : p.narrow = p := by
  rw [narrow, Nat.mod_eq_of_lt h.1, Nat.mod_eq_of_lt h.2]

end CodeHealth.Text.Position

namespace CodeHealth.Proofs.TextLines

open CodeHealth.Text

/-! ### Pieces -/

lemma linesOfPieces_cons {p : List Char} {ps : List (List Char)} (h : ps ≠ []) :
    linesOfPieces (p :: ps) = dropReturn p :: linesOfPieces ps := by
  cases ps with
  | nil => exact absurd rfl h
  | cons q ps => rfl

lemma linesOfPieces_append (ps : List (List Char)) {qs : List (List Char)} (h : qs ≠ []) :
    linesOfPieces (ps ++ qs) = ps.map dropReturn ++ linesOfPieces qs := by
  induction ps with
  | nil => rfl
  | cons p ps ih =>
    rw [List.cons_append, linesOfPieces_cons (List.append_ne_nil_of_right_ne_nil ps h), ih,
      List.map_cons, List.cons_append]

lemma length_linesOfPieces_le (ps : List (List Char)) : (linesOfPieces ps).length ≤ ps.length := by
  fun_induction linesOfPieces ps with
  | case1 => exact le_rfl
  | case2 | case3 => simp
  | case4 p ps _ ih => exact Nat.succ_le_succ ih

lemma length_linesOfPieces_congr {ps qs : List (List Char)}
    (h : List.Forall₂ (fun p q => p.length = q.length) ps qs) :
    (linesOfPieces ps).length = (linesOfPieces qs).length := by
  induction h with
  | nil => rfl
  | @cons p q ps qs hpq hrest ih =>
    cases hrest with
    | nil =>
      have hempty : p.isEmpty = q.isEmpty := by
        rw [Bool.eq_iff_iff, List.isEmpty_iff_length_eq_zero, List.isEmpty_iff_length_eq_zero, hpq]
      rw [linesOfPieces, linesOfPieces, hempty]
      split_ifs <;> rfl
    | cons _ _ =>
      rw [linesOfPieces_cons (List.cons_ne_nil _ _), linesOfPieces_cons (List.cons_ne_nil _ _),
        List.length_cons, List.length_cons, ih]

lemma break_notMem_pieces {t p : List Char} (h : p ∈ pieces t) : '\n' ∉ p := by
  induction t generalizing p with
  | nil =>
    obtain rfl : p = [] := by simpa [pieces] using h
    exact List.not_mem_nil
  | cons c t ih =>
    rw [pieces] at h
    split_ifs at h with hc
    · rcases List.mem_cons.mp h with rfl | h
      · exact List.not_mem_nil
      · exact ih h
    · cases hp : pieces t with
      | nil => exact absurd hp (pieces_ne_nil t)
      | cons q ps =>
        rw [hp] at h
        rcases List.mem_cons.mp h with rfl | h
        · have := ih (hp ▸ List.mem_cons_self)
          simp [Ne.symm hc, this]
        · exact ih (hp ▸ List.mem_cons_of_mem q h)

lemma pieces_of_notMem {p : List Char} (h : '\n' ∉ p) : pieces p = [p] := by
  induction p with
  | nil => rfl
  | cons c p ih =>
    rw [List.mem_cons, not_or] at h
    rw [pieces, if_neg (Ne.symm h.1), ih h.2]

lemma pieces_append_break {p t : List Char} (h : '\n' ∉ p) :
    pieces (p ++ '\n' :: t) = p :: pieces t := by
  induction p with
  | nil => rfl
  | cons c p ih =>
    rw [List.mem_cons, not_or] at h
    rw [List.cons_append, pieces, if_neg (Ne.symm h.1), ih h.2]

/-- What holds of texts without a line feed, and of a text behind a first line if it holds of what
follows the line, holds of every text. -/
lemma byLines {P : List Char → Prop} (last : ∀ p, '\n' ∉ p → P p)
    (more : ∀ p t, '\n' ∉ p → P t → P (p ++ '\n' :: t)) (t : List Char) : P t := by
  induction h : t.length using Nat.strong_induction_on generalizing t with
  | _ n ih =>
    by_cases hbreak : '\n' ∈ t
    · obtain ⟨p, rest, rfl, hp⟩ := List.eq_append_cons_of_mem hbreak
      rw [List.length_append, List.length_cons] at h
      exact more p rest hp (ih rest.length (by omega) rest rfl)
    · exact last t hbreak

lemma pieces_append_lineFeed (s t : List Char) :
    pieces (s ++ '\n' :: t) = pieces s ++ pieces t := by
  induction s using byLines with
  | last p hp => rw [pieces_append_break hp, pieces_of_notMem hp, List.singleton_append]
  | more p s hp ih =>
    rw [List.append_assoc, List.cons_append, pieces_append_break hp, ih, pieces_append_break hp,
      List.cons_append]

lemma lines_append_lineFeed (s t : List Char) :
    lines (s ++ '\n' :: t) = (pieces s).map dropReturn ++ lines t := by
  rw [lines, pieces_append_lineFeed, linesOfPieces_append _ (pieces_ne_nil t), lines]

lemma length_pieces_le_byteLength (t : List Char) : (pieces t).length ≤ byteLength t + 1 := by
  induction t using byLines with
  | last p hp =>
    rw [pieces_of_notMem hp]
    exact Nat.le_add_left 1 _
  | more p t hp ih =>
    rw [pieces_append_break hp, List.length_cons, byteLength_append, byteLength_cons]
    have hpos := ('\n').utf8Size_pos
    omega

/-! ### Places -/

lemma byteLength_take_le (t : List Char) (k : ℕ) : byteLength (t.take k) ≤ byteLength t := by
  conv_rhs => rw [← List.take_append_drop k t, byteLength_append]
  exact Nat.le_add_right _ _

/-- Between two characters of a line the columns are counted in characters. -/
lemma columnAt_take (t : List Char) (k : ℕ) :
    columnAt t (byteLength (t.take k)) = Word.ordinal32 (t.take k).length := by
  have hsplit := splitAtByte_byteLength (t.take k) (t.drop k)
  rw [List.take_append_drop] at hsplit
  rw [columnAt, Nat.min_eq_left (byteLength_take_le t k), hsplit]

lemma foldl_advance_of_notMem {p : List Char} (h : '\n' ∉ p) (q : Position) :
    p.foldl Position.advance q = ⟨q.line, q.column + p.length⟩ := by
  induction p generalizing q with
  | nil => rfl
  | cons c p ih =>
    rw [List.mem_cons, not_or] at h
    rw [List.foldl_cons, ih h.2, Position.advance, if_neg (Ne.symm h.1), List.length_cons]
    simp only [Position.mk.injEq, true_and]
    omega

/-! ### The order of places -/

/-- One place comes before another: it is in an earlier line, or before it in the same line. -/
def Precedes (p q : Position) : Prop := p.line < q.line ∨ p.line = q.line ∧ p.column < q.column

lemma Precedes.trans {p q r : Position} (hpq : Precedes p q) (hqr : Precedes q r) :
    Precedes p r := by
  unfold Precedes at *
  omega

lemma Precedes.ne {p q : Position} (h : Precedes p q) : p ≠ q := by
  rintro rfl
  unfold Precedes at h
  omega

lemma precedes_advance (p : Position) (c : Char) : Precedes p (p.advance c) := by
  unfold Position.advance Precedes
  split
  · exact .inl (Nat.lt_succ_self _)
  · exact .inr ⟨rfl, Nat.lt_succ_self _⟩

lemma precedes_foldl_advance {cs : List Char} (h : cs ≠ []) (p : Position) :
    Precedes p (cs.foldl Position.advance p) := by
  induction cs generalizing p with
  | nil => exact absurd rfl h
  | cons c cs ih =>
    rw [List.foldl_cons]
    rcases eq_or_ne cs [] with rfl | hcs
    · exact precedes_advance p c
    · exact (precedes_advance p c).trans (ih hcs _)

lemma le_line_foldl_advance (cs : List Char) (p : Position) :
    p.line ≤ (cs.foldl Position.advance p).line := by
  rcases eq_or_ne cs [] with rfl | hcs
  · exact le_rfl
  · rcases precedes_foldl_advance hcs p with hlt | ⟨heq, -⟩
    · exact hlt.le
    · exact heq.le

/-- **What stands further on has a later place.** -/
theorem precedes_after {lead between : List Char} (h : between ≠ []) :
    Precedes (.after lead) (.after (lead ++ between)) := by
  rw [Position.after, Position.after, List.foldl_append]
  exact precedes_foldl_advance h _

/-- Two places of one text are told apart by line and column. -/
theorem eq_of_after_eq {a b t : List Char} (ha : a <+: t) (hb : b <+: t)
    (h : Position.after a = .after b) : a = b := by
  rcases List.prefix_or_prefix_of_prefix ha hb with ⟨m, rfl⟩ | ⟨m, rfl⟩
  · by_contra hne
    have hlater : Precedes (.after a) (.after (a ++ m)) := by
      refine precedes_after ?_
      rintro rfl
      exact hne (List.append_nil a).symm
    exact hlater.ne h
  · by_contra hne
    have hlater : Precedes (.after b) (.after (b ++ m)) := by
      refine precedes_after ?_
      rintro rfl
      exact hne (List.append_nil b)
    exact hlater.ne h.symm

/-! ### Numbered lines -/

/-- The lines of a text, counted without a bound. -/
def countedLines (text : List Char) : List (ℕ × List Char) :=
  ((lines text).zipIdx 1).map fun (line, n) => (n, line)

lemma numberedLines_eq (text : List Char) :
    numberedLines text = (countedLines text).map fun (n, line) => (n % Word.bound32, line) := by
  rw [numberedLines, countedLines, List.zipIdx_succ, List.map_map, List.map_map]
  exact List.map_congr_left fun (line, i) _ => by simp [Word.ordinal32_eq]

lemma eq_of_mem_countedLines {text : List Char} {n : ℕ} {line line' : List Char}
    (h : (n, line) ∈ countedLines text) (h' : (n, line') ∈ countedLines text) : line = line' := by
  have hget {l : List Char} (hl : (n, l) ∈ countedLines text) : (lines text)[n - 1]? = some l := by
    obtain ⟨⟨l', m⟩, hmem, heq⟩ := List.mem_map.mp hl
    obtain ⟨rfl, rfl⟩ := Prod.mk.inj heq
    obtain ⟨-, hget⟩ := List.mk_mem_zipIdx_iff_le_and_getElem?_sub.mp hmem
    exact hget
  exact Option.some.inj ((hget h).symm.trans (hget h'))

/-- A line has the number of the lines before it, counted from one. -/
lemma number_eq_of_split {text : List Char} {before after : List (ℕ × List Char)} {n : ℕ}
    {line : List Char} (h : countedLines text = before ++ (n, line) :: after) :
    n = before.length + 1 := by
  have hget : (countedLines text)[before.length]? = some (n, line) := by
    rw [h, List.getElem?_append_right le_rfl, Nat.sub_self]
    rfl
  rw [countedLines, List.getElem?_map, List.getElem?_zipIdx, Option.map_map] at hget
  obtain ⟨line', -, heq⟩ := Option.map_eq_some_iff.mp hget
  rw [← (Prod.mk.inj heq).1, Nat.add_comm]

lemma le_length_of_mem_countedLines {text : List Char} {n : ℕ} {line : List Char}
    (h : (n, line) ∈ countedLines text) : n ≤ (lines text).length := by
  obtain ⟨before, after, hsplit⟩ := List.append_of_mem h
  have hlength := congrArg List.length hsplit
  rw [countedLines, List.length_map, List.length_zipIdx, List.length_append,
    List.length_cons] at hlength
  have hn := number_eq_of_split hsplit
  omega

lemma mem_lines_of_mem_countedLines {text : List Char} {n : ℕ} {line : List Char}
    (h : (n, line) ∈ countedLines text) : line ∈ lines text := by
  obtain ⟨⟨l, m⟩, hmem, heq⟩ := List.mem_map.mp h
  obtain ⟨rfl, rfl⟩ := Prod.mk.inj heq
  exact List.fst_mem_of_mem_zipIdx hmem

lemma exists_mem_countedLines {text line : List Char} (h : line ∈ lines text) :
    ∃ n, (n, line) ∈ countedLines text := by
  obtain ⟨i, hi⟩ := List.mem_iff_getElem?.mp h
  refine ⟨1 + i, List.mem_map.mpr ⟨(line, 1 + i), ?_, rfl⟩⟩
  exact List.mk_add_mem_zipIdx_iff_getElem?.mpr hi

lemma mem_countedLines_of_getElem? {text : List Char} {i n : ℕ} {line : List Char}
    (h : (numberedLines text)[i]? = some (n, line)) :
    n = (i + 1) % Word.bound32 ∧ (i + 1, line) ∈ countedLines text := by
  rw [numberedLines, List.getElem?_map, List.getElem?_zipIdx, Option.map_map] at h
  obtain ⟨line', hline, heq⟩ := Option.map_eq_some_iff.mp h
  obtain ⟨rfl, rfl⟩ := Prod.mk.inj heq
  refine ⟨by rw [Nat.zero_add, Word.ordinal32_eq], List.mem_map.mpr ⟨(line', i + 1), ?_, rfl⟩⟩
  rw [Nat.add_comm]
  exact List.mk_add_mem_zipIdx_iff_getElem?.mpr hline

/-! ### Lines in their text -/

/-- A line in its text: what is before it ends with a line feed, and what is behind it starts with
the end of the line. -/
structure IsLineAt (text : List Char) (n : ℕ) (lead line tail : List Char) : Prop where
  split : text = lead ++ (line ++ tail)
  place : Position.after lead = ⟨n, 1⟩
  starts : lead = [] ∨ lead.getLast? = some '\n'
  unbroken : '\n' ∉ line
  ends : ∀ c ∈ tail.head?, c = '\n' ∨ c = '\r'

lemma countedLines_append_break {p : List Char} (hp : '\n' ∉ p) (t : List Char) :
    countedLines (p ++ '\n' :: t) =
      (1, dropReturn p) :: (countedLines t).map fun numbered => (numbered.1 + 1, numbered.2) := by
  rw [countedLines, countedLines, lines, pieces_append_break hp,
    linesOfPieces_cons (pieces_ne_nil t), List.zipIdx_cons, List.map_cons, List.map_map,
    List.zipIdx_succ, List.map_map]
  rfl

lemma countedLines_of_notMem {p : List Char} (hp : '\n' ∉ p) :
    countedLines p = if p.isEmpty then [] else [(1, p)] := by
  rw [countedLines, lines, pieces_of_notMem hp, linesOfPieces]
  split_ifs <;> rfl

lemma exists_dropReturn (p : List Char) :
    ∃ tail, p = dropReturn p ++ tail ∧ ∀ c ∈ tail, c = '\r' := by
  rw [dropReturn]
  split_ifs with h
  · refine ⟨['\r'], ?_, by simp⟩
    obtain ⟨q, rfl⟩ := List.getLast?_eq_some_iff.mp h
    rw [List.dropLast_concat]
  · exact ⟨[], (List.append_nil p).symm, List.forall_mem_nil _⟩

lemma isLineAt_first {p : List Char} (hp : '\n' ∉ p) (t : List Char) :
    ∃ tail, IsLineAt (p ++ '\n' :: t) 1 [] (dropReturn p) tail := by
  obtain ⟨tail, hsplit, htail⟩ := exists_dropReturn p
  refine ⟨tail ++ '\n' :: t, ?_, rfl, .inl rfl, ?_, ?_⟩
  · rw [List.nil_append, ← List.append_assoc, ← hsplit]
  · rw [hsplit] at hp
    exact fun h => hp (List.mem_append_left tail h)
  · intro c hc
    cases tail with
    | nil => exact .inl (Option.some.inj hc).symm
    | cons d tail => exact .inr ((Option.some.inj hc) ▸ htail d List.mem_cons_self)

lemma foldl_advance_succ (cs : List Char) (p : Position) :
    cs.foldl Position.advance ⟨p.line + 1, p.column⟩ =
    ⟨(cs.foldl Position.advance p).line + 1, (cs.foldl Position.advance p).column⟩ := by
  induction cs generalizing p with
  | nil => rfl
  | cons c cs ih =>
    have hstep : Position.advance ⟨p.line + 1, p.column⟩ c =
        ⟨(p.advance c).line + 1, (p.advance c).column⟩ := by
      unfold Position.advance
      split_ifs <;> rfl
    rw [List.foldl_cons, List.foldl_cons, hstep, ih]

lemma after_append_break {p : List Char} (hp : '\n' ∉ p) (t : List Char) :
    Position.after (p ++ '\n' :: t) = ⟨(Position.after t).line + 1, (Position.after t).column⟩ := by
  have hbreak : Position.advance ⟨Position.start.line, Position.start.column + p.length⟩ '\n' =
      ⟨Position.start.line + 1, Position.start.column⟩ := rfl
  rw [Position.after, List.foldl_append, foldl_advance_of_notMem hp, List.foldl_cons, hbreak,
    foldl_advance_succ, Position.after]

lemma IsLineAt.behind {t : List Char} {n : ℕ} {lead line tail : List Char}
    (h : IsLineAt t n lead line tail) {p : List Char} (hp : '\n' ∉ p) :
    IsLineAt (p ++ '\n' :: t) (n + 1) (p ++ '\n' :: lead) line tail := by
  refine ⟨by simp [h.split], by rw [after_append_break hp, h.place], .inr ?_, h.unbroken, h.ends⟩
  rcases h.starts with rfl | hlast
  · exact List.getLast?_concat
  · rw [List.getLast?_append, List.getLast?_cons, hlast]
    rfl

lemma exists_isLineAt {text : List Char} {n : ℕ} {line : List Char}
    (h : (n, line) ∈ countedLines text) :
    ∃ lead tail, IsLineAt text n lead line tail := by
  induction text using byLines generalizing n line with
  | last p hp =>
    rw [countedLines_of_notMem hp] at h
    split_ifs at h
    · cases h
    · obtain ⟨rfl, rfl⟩ := Prod.mk.inj (List.mem_singleton.mp h)
      exact ⟨[], [], by simp, rfl, .inl rfl, hp, by simp⟩
  | more p t hp ih =>
    rw [countedLines_append_break hp, List.mem_cons] at h
    rcases h with heq | h
    · obtain ⟨rfl, rfl⟩ := Prod.mk.inj heq
      obtain ⟨tail, htail⟩ := isLineAt_first hp t
      exact ⟨[], tail, htail⟩
    · obtain ⟨⟨m, l⟩, hmem, heq⟩ := List.mem_map.mp h
      obtain ⟨rfl, rfl⟩ := Prod.mk.inj heq
      obtain ⟨lead, tail, hat⟩ := ih hmem
      exact ⟨p ++ '\n' :: lead, tail, hat.behind hp⟩

lemma exists_line_of_index {text : List Char} {k : ℕ} {c : Char} (hk : text[k]? = some c)
    (hbreak : c ≠ '\n') (hreturn : c ≠ '\r') :
    ∃ n lead line tail j, (n, line) ∈ countedLines text ∧
      IsLineAt text n lead line tail ∧ k = lead.length + j ∧ j < line.length := by
  induction text using byLines generalizing k with
  | last p hp =>
    obtain ⟨hlt, -⟩ := List.getElem?_eq_some_iff.mp hk
    have hne : ¬ p.isEmpty = true := by
      rw [List.isEmpty_iff]
      rintro rfl
      exact absurd hlt (Nat.not_lt_zero k)
    refine ⟨1, [], p, [], k, ?_, ⟨by simp, rfl, .inl rfl, hp, by simp⟩, (Nat.zero_add k).symm, hlt⟩
    rw [countedLines_of_notMem hp, if_neg hne]
    exact List.mem_singleton_self _
  | more p t hp ih =>
    rw [countedLines_append_break hp]
    rcases Nat.lt_trichotomy k p.length with hlt | rfl | hgt
    · -- in the first line, and not in what ends it
      obtain ⟨tail, hat⟩ := isLineAt_first hp t
      refine ⟨1, [], dropReturn p, tail, k, List.mem_cons_self, hat, (Nat.zero_add k).symm, ?_⟩
      obtain ⟨returns, hsplit, hreturns⟩ := exists_dropReturn p
      by_contra! hle
      rw [List.getElem?_append_left hlt, hsplit, List.getElem?_append_right hle] at hk
      exact hreturn (hreturns c (List.mem_of_getElem? hk))
    · rw [List.getElem?_append_right le_rfl, Nat.sub_self] at hk
      exact absurd (Option.some.inj hk).symm hbreak
    · obtain ⟨i, rfl⟩ : ∃ i, k = p.length + (i + 1) := ⟨k - p.length - 1, by omega⟩
      rw [List.getElem?_append_right (Nat.le_add_right _ _), Nat.add_sub_cancel_left,
        List.getElem?_cons_succ] at hk
      obtain ⟨n, lead, line, tail, j, hmem, hat, rfl, hj⟩ := ih hk
      refine ⟨n + 1, p ++ '\n' :: lead, line, tail, j, ?_, hat.behind hp, ?_, hj⟩
      · exact List.mem_cons_of_mem _ (List.mem_map.mpr ⟨(n, line), hmem, rfl⟩)
      · rw [List.length_append, List.length_cons]
        omega

section IsLineAt

variable {text lead line tail : List Char} {n : ℕ} (h : IsLineAt text n lead line tail)
include h

lemma IsLineAt.drop {j : ℕ} (hj : j ≤ line.length) :
    text.drop (lead.length + j) = line.drop j ++ tail := by
  rw [h.split, ← List.drop_drop, List.drop_left, List.drop_append_of_le_length hj]

lemma IsLineAt.ofIndex {j : ℕ} (hj : j ≤ line.length) :
    Position.ofIndex text (lead.length + j) = ⟨n, j + 1⟩ := by
  have hunbroken : '\n' ∉ line.take j := fun hmem => h.unbroken (List.mem_of_mem_take hmem)
  have htake : text.take (lead.length + j) = lead ++ line.take j := by
    rw [h.split, List.take_length_add_append, List.take_append_of_le_length hj]
  have hplace := h.place
  rw [Position.after] at hplace
  rw [Position.ofIndex, htake, Position.after, List.foldl_append, hplace,
    foldl_advance_of_notMem hunbroken, List.length_take, Nat.min_eq_left hj, Nat.add_comm]

lemma IsLineAt.line_lt {k : ℕ} (hk : k < lead.length) : (Position.ofIndex text k).line < n := by
  have hne : lead ≠ [] := by
    rintro rfl
    exact absurd hk (Nat.not_lt_zero k)
  obtain ⟨front, hfront⟩ := List.getLast?_eq_some_iff.mp (h.starts.resolve_left hne)
  have hle : k ≤ front.length := by
    rw [hfront, List.length_append, List.length_singleton] at hk
    omega
  have htake : text.take k = front.take k := by
    rw [h.split, hfront, List.append_assoc, List.take_append_of_le_length hle]
  have hbreak : (Position.after front).line + 1 = n := by
    have hplace := h.place
    rw [hfront, Position.after_snoc, Position.advance, if_pos rfl] at hplace
    exact (Position.mk.inj hplace).1
  have hline : (Position.after (front.take k)).line ≤ (Position.after front).line := by
    have hle := le_line_foldl_advance (front.drop k) (.after (front.take k))
    rwa [Position.after, ← List.foldl_append, List.take_append_drop] at hle
  rw [Position.ofIndex, htake]
  omega

lemma IsLineAt.lt_of_line_lt {k : ℕ} (hk : (Position.ofIndex text k).line < n) :
    k < lead.length := by
  by_contra! hle
  have htake : text.take k = lead ++ (line ++ tail).take (k - lead.length) := by
    rw [h.split, List.take_append, List.take_of_length_le hle]
  have hplace := h.place
  rw [Position.after] at hplace
  rw [Position.ofIndex, htake, Position.after, List.foldl_append, hplace] at hk
  exact absurd hk (le_line_foldl_advance _ ⟨n, 1⟩).not_gt

end IsLineAt

/-! ### Texts whose places fit -/

def PlacesFit (text : List Char) : Prop := ∀ i, (Position.ofIndex text i).Fits

lemma forall_take_append_break {P : List Char → Prop} {p t : List Char} :
    (∀ i, P ((p ++ '\n' :: t).take i)) ↔ (∀ i, P (p.take i)) ∧ ∀ i, P (p ++ '\n' :: t.take i) := by
  constructor
  · intro h
    refine ⟨fun i => ?_, fun i => ?_⟩
    · have hfirst := h (min i p.length)
      rwa [List.take_append_of_le_length (min_le_right _ _), ← List.take_eq_take_min] at hfirst
    · have hlater := h (p.length + (i + 1))
      rwa [List.take_length_add_append, List.take_succ_cons] at hlater
  · rintro ⟨hfirst, hlater⟩ i
    rcases Nat.lt_or_ge p.length i with hi | hi
    · obtain ⟨j, rfl⟩ : ∃ j, i = p.length + (j + 1) := ⟨i - p.length - 1, by omega⟩
      rw [List.take_length_add_append, List.take_succ_cons]
      exact hlater j
    · rw [List.take_append_of_le_length hi]
      exact hfirst i

lemma forall_fits_of_notMem {p : List Char} (hp : '\n' ∉ p) (line : ℕ) :
    (∀ i, ((p.take i).foldl Position.advance ⟨line, 1⟩).Fits) ↔
      line < Word.bound32 ∧ p.length + 1 < Word.bound32 := by
  have hplace (i : ℕ) : (p.take i).foldl Position.advance ⟨line, 1⟩ = ⟨line, 1 + (p.take i).length⟩ :=
    foldl_advance_of_notMem (fun h => hp (List.mem_of_mem_take h)) _
  simp only [hplace, Position.Fits]
  constructor
  · intro h
    have hlast := h p.length
    rw [List.take_length] at hlast
    exact ⟨hlast.1, by omega⟩
  · rintro ⟨hline, hcolumn⟩ i
    have hle := List.length_take_le' i p
    exact ⟨hline, by omega⟩

lemma forall_fits_iff (t : List Char) (line : ℕ) :
    (∀ i, ((t.take i).foldl Position.advance ⟨line, 1⟩).Fits) ↔
      line + (pieces t).length ≤ Word.bound32 ∧ ∀ p ∈ pieces t, p.length + 1 < Word.bound32 := by
  induction t using byLines generalizing line with
  | last p hp =>
    rw [forall_fits_of_notMem hp, pieces_of_notMem hp, List.forall_mem_singleton]
    rfl
  | more p t hp ih =>
    have hbehind (i : ℕ) : (p ++ '\n' :: t.take i).foldl Position.advance ⟨line, 1⟩ =
        (t.take i).foldl Position.advance ⟨line + 1, 1⟩ := by
      rw [List.foldl_append, foldl_advance_of_notMem hp, List.foldl_cons, Position.advance,
        if_pos rfl]
    have hpos := List.length_pos_of_ne_nil (pieces_ne_nil t)
    rw [forall_take_append_break (P := fun cs => (cs.foldl Position.advance ⟨line, 1⟩).Fits),
      forall_fits_of_notMem hp]
    simp only [hbehind, ih, pieces_append_break hp, List.length_cons, List.forall_mem_cons]
    constructor
    · rintro ⟨⟨-, hfirst⟩, hlines, hlater⟩
      exact ⟨by omega, hfirst, hlater⟩
    · rintro ⟨hlines, hfirst, hlater⟩
      exact ⟨⟨by omega, hfirst⟩, by omega, hlater⟩

/-- The places of a text fit exactly if neither its lines nor the characters of one are too many. -/
theorem placesFit_iff {text : List Char} :
    PlacesFit text ↔
      (pieces text).length < Word.bound32 ∧ ∀ p ∈ pieces text, p.length + 1 < Word.bound32 := by
  have h := forall_fits_iff text 1
  rwa [Nat.add_comm 1] at h

instance (text : List Char) : Decidable (PlacesFit text) := decidable_of_iff _ placesFit_iff.symm

lemma PlacesFit.fits {text lead line tail : List Char} {n j : ℕ} (hfit : PlacesFit text)
    (h : IsLineAt text n lead line tail) (hj : j ≤ line.length) : Position.Fits ⟨n, j + 1⟩ := by
  rw [← h.ofIndex hj]
  exact hfit _

end CodeHealth.Proofs.TextLines
