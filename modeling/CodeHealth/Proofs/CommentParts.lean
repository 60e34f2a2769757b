import CodeHealth.Proofs.MaskedPlaces

/-!
The comments and literals that the masking sees.

Each character belongs to code, to a literal or its quotes, or to a comment. In code no comment is
opened without one being there, and a comment is opened where it starts; in a literal, and behind
the first characters of a comment, what opens a comment opens nothing.
-/

namespace CodeHealth.Proofs.CommentParts

open CodeHealth.Text CodeHealth.Proofs.MaskedPlaces

/-- What a character belongs to. A comment is told by the index of its first character. -/
inductive Part where
  | code
  | quote
  | literal
  | comment (start : ℕ)
deriving DecidableEq

/-- What the characters of a text belong to that starts inside a region, at the index `i` and behind
the start of the last comment. -/
def partsFrom : Region → ℕ → ℕ → List Char → List Part
  | _, _, _, [] => []
  | .code, _, i, '/' :: '/' :: cs =>
    .comment i :: .comment i :: partsFrom .lineComment i (i + 2) cs
  | .code, _, i, '/' :: '*' :: cs =>
    .comment i :: .comment i :: partsFrom .blockComment i (i + 2) cs
  | .code, s, i, c :: cs =>
    (if isQuote c then .quote else .code) ::
      partsFrom (if isQuote c then .quoted c else .code) s (i + 1) cs
  | .lineComment, s, i, c :: cs =>
    (if c = '\n' then .code else .comment s) ::
      partsFrom (if c = '\n' then .code else .lineComment) s (i + 1) cs
  | .blockComment, s, i, '*' :: '/' :: cs =>
    .comment s :: .comment s :: partsFrom .code s (i + 2) cs
  | .blockComment, s, i, _ :: cs => .comment s :: partsFrom .blockComment s (i + 1) cs
  | .quoted _, _, _, ['\\'] => [.literal]
  | .quoted q, s, i, '\\' :: _ :: cs => .literal :: .literal :: partsFrom (.quoted q) s (i + 2) cs
  | .quoted q, s, i, c :: cs =>
    if c = q then .quote :: partsFrom .code s (i + 1) cs
    else .literal :: partsFrom (if c = '\n' ∧ q ≠ '`' then .code else .quoted q) s (i + 1) cs

/-- What the characters of a text belong to. -/
def parts (t : List Char) : List Part := partsFrom .code 0 0 t

/-- Whether a comment is opened at the front of a text that is code. -/
def opensComment : List Char → Bool
  | '/' :: c :: _ => c == '/' || c == '*'
  | _ => false

/-! ### The masking -/

/-- What the masking leaves of a character. -/
def shown (c : Char) : Part → Char
  | .code => c
  | .quote => c
  | .literal => hide c
  | .comment _ => hide c

lemma maskFrom_eq (r : Region) (s i : ℕ) (t : List Char) :
    maskFrom r t = List.zipWith shown t (partsFrom r s i t) := by
  -- the regions are those of the masking, so each case shows the character that it keeps or hides
  fun_induction partsFrom r s i t with
  | case1 r s i => exact maskFrom.eq_1 r
  | case2 s i cs ih | case3 s i cs ih | case6 s i cs ih => exact congrArg (' ' :: ' ' :: ·) ih
  | case4 s i c cs hline hblock ih =>
    have hshown : shown c (if isQuote c = true then .quote else .code) = c := by split <;> rfl
    rw [maskFrom, ih, List.zipWith_cons_cons, hshown]
    · exact hline
    · exact hblock
  | case5 s i c cs ih =>
    have hshown : shown c (if c = '\n' then .code else .comment s) = hide c := by
      split
      case isTrue h => exact h ▸ rfl
      case isFalse => rfl
    rw [maskFrom, ih, List.zipWith_cons_cons, hshown]
  | case7 s i c cs hend ih =>
    rw [maskFrom, ih, List.zipWith_cons_cons, shown]
    exact hend
  | case8 => rfl
  | case9 q s i c cs ih => exact congrArg (' ' :: hide c :: ·) ih
  | case10 s i c cs hlast hescape ih =>
    rw [maskFrom, if_pos rfl, ih, List.zipWith_cons_cons, shown]
    · exact hlast
    · exact hescape
  | case11 q s i c cs hlast hescape hc ih =>
    rw [maskFrom, if_neg hc, ih, List.zipWith_cons_cons, shown]
    · exact hlast
    · exact hescape

lemma mask_eq (t : List Char) : mask t = List.zipWith shown t (parts t) := maskFrom_eq .code 0 0 t

/-! ### Openers -/

/-- Parts in which nothing opens a comment unless it is hidden. -/
inductive Opens : List Char → List Part → Prop
  | nil : Opens [] []
  | cons {c : Char} {cs : List Char} {p : Part} {ps : List Part}
      (hidden : opensComment (c :: cs) = true → p = .literal ∨ ∃ s, p = .comment s)
      (rest : Opens cs ps) : Opens (c :: cs) (p :: ps)

lemma opensComment_iff {t : List Char} :
    opensComment t = true ↔ ∃ d cs, t = '/' :: d :: cs ∧ (d = '/' ∨ d = '*') := by
  constructor
  · intro h
    unfold opensComment at h
    split at h
    · rename_i d cs
      rw [Bool.or_eq_true, beq_iff_eq, beq_iff_eq] at h
      exact ⟨d, cs, rfl, h⟩
    · cases h
  · rintro ⟨d, cs, rfl, rfl | rfl⟩ <;> rfl

lemma opensComment_of_ne {c : Char} (h : c ≠ '/') (cs : List Char) :
    opensComment (c :: cs) = false := by
  rw [opensComment]
  rintro _ _ heq
  exact h (List.cons.inj heq).1

lemma Opens.ofComment {c : Char} {cs : List Char} {s : ℕ} {ps : List Part} (h : Opens cs ps) :
    Opens (c :: cs) (.comment s :: ps) := .cons (fun _ => .inr ⟨s, rfl⟩) h

lemma Opens.ofLiteral {c : Char} {cs : List Char} {ps : List Part} (h : Opens cs ps) :
    Opens (c :: cs) (.literal :: ps) := .cons (fun _ => .inl rfl) h

lemma Opens.ofOther {c : Char} {cs : List Char} {p : Part} {ps : List Part}
    (hc : opensComment (c :: cs) = false) (h : Opens cs ps) : Opens (c :: cs) (p :: ps) :=
  .cons (fun hopens => absurd hopens (by rw [hc]; exact Bool.false_ne_true)) h

lemma opens_partsFrom {r : Region} (hr : Entered r) (s i : ℕ) (t : List Char) :
    Opens t (partsFrom r s i t) := by
  fun_induction partsFrom r s i t with
  | case1 => exact .nil
  | case2 s i cs ih | case3 s i cs ih | case6 s i cs ih => exact (ih trivial).ofComment.ofComment
  | case4 s i c cs hline hblock ih =>
    refine .ofOther (Bool.eq_false_iff.mpr fun hopens => ?_) (ih (entered_opened c))
    obtain ⟨d, ds, heq, rfl | rfl⟩ := opensComment_iff.mp hopens
    · exact hline ds (List.cons.inj heq).1 (List.cons.inj heq).2
    · exact hblock ds (List.cons.inj heq).1 (List.cons.inj heq).2
  | case5 s i c cs ih =>
    have hrest := ih (by split <;> trivial)
    split_ifs at hrest ⊢ with hc
    · exact .ofOther (opensComment_of_ne (by rw [hc]; decide) cs) hrest
    · exact hrest.ofComment
  | case7 s i c cs _ ih => exact (ih trivial).ofComment
  | case8 => exact Opens.nil.ofLiteral
  | case9 q s i c cs ih => exact (ih hr).ofLiteral.ofLiteral
  | case10 s i c cs _ _ ih =>
    exact .ofOther (opensComment_of_ne (ne_slash_of_isQuote hr) cs) (ih trivial)
  | case11 q s i c cs _ _ _ ih =>
    refine (ih ?_).ofLiteral
    split
    case isTrue => trivial
    case isFalse => exact hr

lemma Opens.part {t : List Char} {ps : List Part} (h : Opens t ps) {k : ℕ} {p : Part}
    (hp : ps[k]? = some p) (hopens : opensComment (t.drop k) = true) :
    p = .literal ∨ ∃ s, p = .comment s := by
  induction h generalizing k with
  | nil => cases hp
  | cons hidden _ ih =>
    cases k with
    | zero =>
      obtain rfl := Option.some.inj hp
      exact hidden hopens
    | succ k => exact ih hp hopens

/-- **What opens a comment is never in code.** It is in a literal or in a comment. -/
theorem part_of_opensComment {t : List Char} {k : ℕ} {p : Part} (hp : (parts t)[k]? = some p)
    (hopens : opensComment (t.drop k) = true) : p = .literal ∨ ∃ s, p = .comment s :=
  (opens_partsFrom (r := .code) trivial 0 0 t).part hp hopens

lemma Opens.length {t : List Char} {ps : List Part} (h : Opens t ps) : ps.length = t.length := by
  induction h with
  | nil => rfl
  | cons _ _ ih => rw [List.length_cons, List.length_cons, ih]

lemma length_parts (t : List Char) : (parts t).length = t.length :=
  (opens_partsFrom (r := .code) trivial 0 0 t).length

/-! ### Starts of comments -/

/-- The parts from the index `i` on tell of each comment where it was opened. -/
def StartsAt (t : List Char) (i : ℕ) (ps : List Part) : Prop :=
  ∀ k s, ps[k]? = some (.comment s) → opensComment (t.drop s) = true ∧ s ≤ i + k

/-- What the masking is inside of is told where it was opened, if it is a comment. -/
def Opened (t : List Char) (i s : ℕ) : Region → Prop
  | .lineComment => opensComment (t.drop s) = true ∧ s ≤ i
  | .blockComment => opensComment (t.drop s) = true ∧ s ≤ i
  | _ => True

lemma startsAt_nil (t : List Char) (i : ℕ) : StartsAt t i [] := by
  intro k s h
  rw [List.getElem?_nil] at h
  cases h

lemma StartsAt.cons {t : List Char} {i : ℕ} {p : Part} {ps : List Part}
    (hp : ∀ s, p = .comment s → opensComment (t.drop s) = true ∧ s ≤ i)
    (h : StartsAt t (i + 1) ps) :
    StartsAt t i (p :: ps) := by
  intro k s hk
  cases k with
  | zero => exact hp s (Option.some.inj hk)
  | succ k =>
    obtain ⟨hopens, hle⟩ := h k s hk
    exact ⟨hopens, by omega⟩

lemma StartsAt.cons_comment {t : List Char} {i s : ℕ} {ps : List Part}
    (hs : opensComment (t.drop s) = true ∧ s ≤ i) (h : StartsAt t (i + 1) ps) :
    StartsAt t i (.comment s :: ps) := by
  refine h.cons fun s' hs' => ?_
  obtain rfl := Part.comment.inj hs'
  exact hs

lemma StartsAt.cons_other {t : List Char} {i : ℕ} {p : Part} {ps : List Part}
    (hp : ∀ s, p ≠ .comment s) (h : StartsAt t (i + 1) ps) : StartsAt t i (p :: ps) :=
  h.cons fun s hs => absurd hs (hp s)

lemma startsAt_partsFrom {t : List Char} (r : Region) (s i : ℕ) (cs : List Char)
    (hcs : t.drop i = cs) (hr : Opened t i s r) : StartsAt t i (partsFrom r s i cs) := by
  have hnext {i : ℕ} {c : Char} {cs : List Char} (h : t.drop i = c :: cs) :
      t.drop (i + 1) = cs := by
    rw [← List.drop_drop, h]
    rfl
  have hlater {s i : ℕ} (h : opensComment (t.drop s) = true ∧ s ≤ i) :
      opensComment (t.drop s) = true ∧ s ≤ i + 1 := ⟨h.1, Nat.le_succ_of_le h.2⟩
  fun_induction partsFrom r s i cs with
  | case1 => exact startsAt_nil t _
  | case2 s i cs ih | case3 s i cs ih =>
    -- the comment is opened here
    have hopens : opensComment (t.drop i) = true ∧ i ≤ i := ⟨by rw [hcs]; rfl, le_rfl⟩
    exact .cons_comment hopens (.cons_comment (hlater hopens)
      (ih (hnext (hnext hcs)) (hlater (hlater hopens))))
  | case4 s i c cs hline hblock ih =>
    refine .cons_other (fun s => ?_) (ih (hnext hcs) ?_)
    · split <;> exact Part.noConfusion
    · split <;> trivial
  | case5 s i c cs ih =>
    have hrest := ih (hnext hcs)
    split_ifs at hrest ⊢ with hc
    · exact .cons_other (fun s => Part.noConfusion) (hrest trivial)
    · exact .cons_comment hr (hrest (hlater hr))
  | case6 s i cs ih =>
    exact .cons_comment hr (.cons_comment (hlater hr) (ih (hnext (hnext hcs)) trivial))
  | case7 s i c cs _ ih => exact .cons_comment hr (ih (hnext hcs) (hlater hr))
  | case8 q s i => exact .cons_other (fun s => Part.noConfusion) (startsAt_nil t _)
  | case9 q s i c cs ih =>
    exact .cons_other (fun s => Part.noConfusion) (.cons_other (fun s => Part.noConfusion)
      (ih (hnext (hnext hcs)) trivial))
  | case10 s i c cs _ _ ih => exact .cons_other (fun s => Part.noConfusion) (ih (hnext hcs) trivial)
  | case11 q s i c cs _ _ _ ih =>
    refine .cons_other (fun s => Part.noConfusion) (ih (hnext hcs) ?_)
    split <;> trivial

/-- **A comment starts where it is opened.** -/
theorem opensComment_of_part {t : List Char} {k s : ℕ} (hk : (parts t)[k]? = some (.comment s)) :
    opensComment (t.drop s) = true ∧ s ≤ k := by
  have h := startsAt_partsFrom .code 0 0 t rfl trivial k s hk
  rwa [Nat.zero_add] at h

end CodeHealth.Proofs.CommentParts
