import CodeHealth.Proofs.TextLines

/-!
Places that are found by the starts of the lines.

The starts are searched for the last one that is not behind an offset. The first of them is zero, so
there is always one, the difference to it is never negative, and text can be cut there.
-/

namespace CodeHealth.Proofs.LinePlaces

open CodeHealth.Text CodeHealth.Proofs.TextLines

lemma lineStartsFrom_of_notMem {p : List Char} (hp : '\n' ∉ p) (offset : ℕ) (t : List Char) :
    lineStartsFrom offset (p ++ t) = lineStartsFrom (offset + byteLength p) t := by
  induction p generalizing offset with
  | nil => rfl
  | cons c p ih =>
    rw [List.mem_cons, not_or] at hp
    rw [List.cons_append, lineStartsFrom, if_neg (Ne.symm hp.1), ih hp.2, byteLength_cons,
      Nat.add_assoc]

lemma lineStartsFrom_add (t : List Char) (a b : ℕ) :
    lineStartsFrom (a + b) t = (lineStartsFrom b t).map (a + ·) := by
  induction t generalizing b with
  | nil => rfl
  | cons c t ih =>
    rw [lineStartsFrom, lineStartsFrom]
    split
    · rw [List.map_cons, Nat.add_assoc, ih]
    · rw [Nat.add_assoc, ih]

lemma lineStarts_of_notMem {p : List Char} (hp : '\n' ∉ p) : lineStarts p = [0] := by
  have h := lineStartsFrom_of_notMem hp 0 []
  rw [List.append_nil] at h
  rw [lineStarts, h]
  rfl

lemma lineStarts_append_break {p : List Char} (hp : '\n' ∉ p) (t : List Char) :
    lineStarts (p ++ '\n' :: t) = 0 :: (lineStarts t).map (byteLength p + 1 + ·) := by
  rw [lineStarts, lineStartsFrom_of_notMem hp, lineStartsFrom, if_pos rfl, Nat.zero_add, lineStarts,
    List.map_cons, ← lineStartsFrom_add]

lemma lineOf_singleton (offset : ℕ) : lineOf [0] offset = 0 := by
  unfold lineOf search
  cases offset <;> rfl

lemma lineOf_first {b offset : ℕ} (h : offset < b) (starts : List ℕ) :
    lineOf (0 :: starts.map (b + ·)) offset = 0 := by
  have hlater : ∀ n ∈ starts.map (b + ·), ¬ n ≤ offset := by
    intro n hn
    obtain ⟨m, -, rfl⟩ := List.mem_map.mp hn
    omega
  rcases Nat.eq_zero_or_pos offset with rfl | hpos
  · simp [lineOf, search, List.idxOf?_cons]
  · have hmem : offset ∉ 0 :: starts.map (b + ·) := by
      rw [List.mem_cons, not_or]
      exact ⟨hpos.ne', fun hn => hlater offset hn le_rfl⟩
    have hcount : (starts.map (b + ·)).countP (· < offset) = 0 :=
      List.countP_eq_zero.mpr fun n hn => by
        simpa using Nat.le_of_lt (Nat.lt_of_not_le (hlater n hn))
    rw [lineOf, search, List.idxOf?_eq_none_iff.mpr hmem]
    simp [hcount, hpos]

lemma idxOf?_map_add (b k : ℕ) (xs : List ℕ) : (xs.map (b + ·)).idxOf? (b + k) = xs.idxOf? k := by
  induction xs with
  | nil => rfl
  | cons x xs ih => simp [List.idxOf?_cons, ih]

lemma lineOf_later {b : ℕ} (hb : 0 < b) (k : ℕ) (starts : List ℕ) :
    lineOf (0 :: (0 :: starts).map (b + ·)) (b + k) = lineOf (0 :: starts) k + 1 := by
  have hne : (0 == b + k) = false := by simp; omega
  have hcount : ((0 :: starts).map (b + ·)).countP (· < b + k) = (0 :: starts).countP (· < k) := by
    rw [List.countP_map]
    congr 1
    funext n
    simp
  rw [lineOf, lineOf, search, search, List.idxOf?_cons, hne, idxOf?_map_add]
  cases hk : (0 :: starts).idxOf? k with
  | some i => rfl
  | none =>
    have hmem := List.idxOf?_eq_none_iff.mp hk
    have hpos : 0 < k := by
      by_contra h0
      exact hmem (by simp; omega)
    have hfound : 0 < (0 :: starts).countP (· < k) :=
      List.countP_pos_iff.mpr ⟨0, List.mem_cons_self, by simpa using hpos⟩
    change (0 :: _).countP (· < b + k) - 1 = (0 :: starts).countP (· < k) - 1 + 1
    rw [List.countP_cons_of_pos (by simp; omega), hcount]
    omega

lemma takeWhile_append_of_notMem {p : List Char} (hp : '\n' ∉ p) (t : List Char) :
    (p ++ t).takeWhile (· != '\n') = p ++ t.takeWhile (· != '\n') :=
  List.takeWhile_append_of_pos fun c hc => by
    rw [bne_iff_ne]
    exact fun h => hp (h ▸ hc)

structure HoldsOffset (t : List Char) (offset : ℕ) (lead rest : List Char) : Prop where
  split : t = lead ++ rest
  start : (lineStarts t)[lineOf (lineStarts t) offset]? = some (byteLength lead)
  place : Position.after lead = ⟨lineOf (lineStarts t) offset + 1, 1⟩
  before : byteLength lead ≤ offset
  within : '\n' ∈ rest → offset ≤ byteLength lead + byteLength (rest.takeWhile (· != '\n'))

lemma exists_holdsOffset (t : List Char) (offset : ℕ) :
    ∃ lead rest, HoldsOffset t offset lead rest := by
  -- line by line: the last line has no break, and the others end with one
  induction t using byLines generalizing offset with
  | last p hp =>
    refine ⟨[], p, rfl, ?_, ?_, Nat.zero_le _, fun h => absurd h hp⟩
    · rw [lineStarts_of_notMem hp, lineOf_singleton]
      rfl
    · rw [lineStarts_of_notMem hp, lineOf_singleton]
      rfl
  | more p t hp ih =>
    have hline : (p ++ '\n' :: t).takeWhile (· != '\n') = p := by
      rw [takeWhile_append_of_notMem hp]
      exact List.append_nil p
    have hstarts := lineStarts_append_break hp t
    rcases Nat.lt_or_ge offset (byteLength p + 1) with hlt | hge
    · -- the offset lies in the first line
      have hfirst : lineOf (lineStarts (p ++ '\n' :: t)) offset = 0 := by
        rw [hstarts, lineOf_first hlt]
      refine ⟨[], p ++ '\n' :: t, rfl, ?_, ?_, Nat.zero_le _, fun _ => ?_⟩
      · rw [hfirst]
        rfl
      · rw [hfirst]
        rfl
      · rw [hline, byteLength_nil, Nat.zero_add]
        exact Nat.le_of_lt_succ hlt
    · -- it lies behind the first line, so all counts shift by that line
      obtain ⟨k, rfl⟩ := Nat.exists_eq_add_of_le hge
      obtain ⟨lead, rest, h⟩ := ih k
      have hlead : byteLength (p ++ '\n' :: lead) = byteLength p + 1 + byteLength lead := by
        rw [byteLength_append, byteLength_cons, Nat.add_assoc]
        rfl
      have hlater : lineOf (lineStarts (p ++ '\n' :: t)) (byteLength p + 1 + k) =
          lineOf (lineStarts t) k + 1 := by
        rw [hstarts]
        exact lineOf_later (Nat.succ_pos _) k _
      refine ⟨p ++ '\n' :: lead, rest, by simp [h.split], ?_, ?_, ?_, fun hbreak => ?_⟩
      · rw [hlater, hstarts, List.getElem?_cons_succ, List.getElem?_map, h.start, hlead,
          Option.map_some]
      · rw [hlater, after_append_break hp, h.place]
      · rw [hlead]
        exact Nat.add_le_add_left h.before _
      · rw [hlead, Nat.add_assoc _ (byteLength lead)]
        exact Nat.add_le_add_left (h.within hbreak) _

section HoldsOffset

variable {text lead rest : List Char} {offset : ℕ}

lemma HoldsOffset.placeAt_eq (h : HoldsOffset text offset lead rest) :
    placeAt text offset = .ok ⟨Word.ordinal32 (lineOf (lineStarts text) offset),
      columnAt (rest.takeWhile (· != '\n')) (offset - byteLength lead)⟩ := by
  have hread : readAt (lineStarts text) (lineOf (lineStarts text) offset) =
      .ok (byteLength lead) := by rw [readAt, h.start]
  have hrest : sliceFrom (byteLength lead) text = .ok rest := by
    rw [sliceFrom, h.split, splitAtByte_byteLength]
  rw [placeAt, hread]
  change sliceFrom _ _ >>= _ = _
  rw [hrest]
  change minus _ _ >>= _ = _
  rw [minus_of_le h.before]
  rfl

lemma prefix_of_byteLength_le {a b : List Char} (ha : a <+: text) (hb : b <+: text)
    (h : byteLength a ≤ byteLength b) : a <+: b := by
  rcases List.prefix_or_prefix_of_prefix ha hb with hab | ⟨m, rfl⟩
  · exact hab
  · have hm : m = [] := by
      cases m with
      | nil => rfl
      | cons c m =>
        have hc := c.utf8Size_pos
        rw [byteLength_append, byteLength_cons] at h
        omega
    rw [hm, List.append_nil]

lemma HoldsOffset.exists_inLine {before behind : List Char}
    (h : HoldsOffset (before ++ behind) (byteLength before) lead rest) :
    ∃ inLine, before = lead ++ inLine ∧ rest = inLine ++ behind ∧ '\n' ∉ inLine := by
  obtain ⟨inLine, rfl⟩ := prefix_of_byteLength_le ⟨rest, h.split.symm⟩ ⟨behind, rfl⟩ h.before
  have hrest : rest = inLine ++ behind := by
    have hsplit := h.split
    rw [List.append_assoc] at hsplit
    exact (List.append_cancel_left hsplit).symm
  refine ⟨inLine, rfl, hrest, fun hmem => ?_⟩
  -- a line feed in it would end the line before the offset
  obtain ⟨front, back, rfl, hfront⟩ := List.eq_append_cons_of_mem hmem
  have hwithin := h.within (by simp [hrest])
  have hline : rest.takeWhile (· != '\n') = front := by
    rw [hrest, List.append_assoc, takeWhile_append_of_notMem hfront]
    exact List.append_nil front
  rw [hline, byteLength_append, byteLength_append, byteLength_cons] at hwithin
  have hpos := ('\n').utf8Size_pos
  omega

lemma HoldsOffset.after_append (h : HoldsOffset text offset lead rest) {before inLine : List Char}
    (hunbroken : '\n' ∉ inLine) (hbefore : before = lead ++ inLine) :
    Position.after before = ⟨lineOf (lineStarts text) offset + 1, 1 + inLine.length⟩ := by
  have hlead := h.place
  rw [Position.after] at hlead
  rw [hbefore, Position.after, List.foldl_append, hlead, foldl_advance_of_notMem hunbroken]

end HoldsOffset

theorem exists_placeAt (text : List Char) (offset : ℕ) :
    ∃ column,
      placeAt text offset = .ok ⟨Word.ordinal32 (lineOf (lineStarts text) offset), column⟩ := by
  obtain ⟨lead, rest, h⟩ := exists_holdsOffset text offset
  exact ⟨_, h.placeAt_eq⟩

/-- **Between two characters the place that is found is what fits of the place that is counted.** -/
theorem placeAt_byteLength (before behind : List Char) :
    placeAt (before ++ behind) (byteLength before) = .ok (Position.after before).narrow := by
  obtain ⟨lead, rest, h⟩ := exists_holdsOffset (before ++ behind) (byteLength before)
  obtain ⟨inLine, hbefore, hrest, hunbroken⟩ := h.exists_inLine
  have hcolumn : columnAt (rest.takeWhile (· != '\n')) (byteLength before - byteLength lead) =
      Word.ordinal32 inLine.length := by
    have htake := columnAt_take (inLine ++ behind.takeWhile (· != '\n')) inLine.length
    rw [List.take_left] at htake
    rw [hbefore, byteLength_append, Nat.add_sub_cancel_left, hrest,
      takeWhile_append_of_notMem hunbroken, htake]
  rw [h.placeAt_eq, hcolumn, h.after_append hunbroken hbefore, Position.narrow, Word.ordinal32_eq,
    Word.ordinal32_eq, Nat.add_comm inLine.length]

lemma placeAt_offsetAt (text : List Char) (i : ℕ) :
    placeAt text (offsetAt text i) = .ok (Position.ofIndex text i).narrow := by
  have h := placeAt_byteLength (text.take i) (text.drop i)
  rwa [List.take_append_drop] at h

/-! ### Numbers of lines -/

lemma lineOf_lt_of_mem_line {before behind : List Char} {c : Char} (hbreak : c ≠ '\n')
    (hreturn : c ≠ '\r') :
    lineOf (lineStarts (before ++ c :: behind)) (byteLength before) <
      (lines (before ++ c :: behind)).length := by
  obtain ⟨lead, rest, h⟩ := exists_holdsOffset (before ++ c :: behind) (byteLength before)
  obtain ⟨inLine, hbefore, -, hunbroken⟩ := h.exists_inLine
  have hc : (before ++ c :: behind)[before.length]? = some c := by simp
  obtain ⟨n, lead', line, tail, j, hmem, hat, hlength, hj⟩ := exists_line_of_index hc hbreak hreturn
  have hplace := hat.ofIndex hj.le
  rw [← hlength, Position.ofIndex, List.take_left, h.after_append hunbroken hbefore,
    Position.mk.injEq] at hplace
  have hle := le_length_of_mem_countedLines hmem
  omega

lemma lineOf_mono (text : List Char) {a b : ℕ} (h : a ≤ b) :
    lineOf (lineStarts text) a ≤ lineOf (lineStarts text) b := by
  induction text using byLines generalizing a b with
  | last p hp => rw [lineStarts_of_notMem hp, lineOf_singleton, lineOf_singleton]
  | more p t hp ih =>
    rw [lineStarts_append_break hp]
    rcases Nat.lt_or_ge a (byteLength p + 1) with ha | ha
    · rw [lineOf_first ha]
      exact Nat.zero_le _
    · obtain ⟨k, rfl⟩ := Nat.exists_eq_add_of_le ha
      obtain ⟨m, rfl⟩ := Nat.exists_eq_add_of_le (ha.trans h)
      rw [lineStarts, lineOf_later (Nat.succ_pos _), lineOf_later (Nat.succ_pos _)]
      exact Nat.succ_le_succ (ih (Nat.le_of_add_le_add_left h))

lemma minus_ordinal32 (text : List Char) {a b : ℕ} (h : a ≤ b)
    (hfit : lineOf (lineStarts text) b + 1 < Word.bound32) :
    minus (Word.ordinal32 (lineOf (lineStarts text) b))
        (Word.ordinal32 (lineOf (lineStarts text) a)) =
      .ok (lineOf (lineStarts text) b - lineOf (lineStarts text) a) := by
  have hle := lineOf_mono text h
  rw [Word.ordinal32_of_lt hfit, Word.ordinal32_of_lt (by omega), minus_of_le (by omega),
    Nat.add_sub_add_right]

end CodeHealth.Proofs.LinePlaces
