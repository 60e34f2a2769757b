import CodeHealth.Proofs.JsonText
import Mathlib.Data.List.TakeWhile

/-!
Reading the leaves of JSON texts.

Blanks, words, strings and numbers: what a scan accepts is written as the grammar says, and what is
written so is read back, whatever follows. Only a number needs a follower that cannot belong to it.
-/

namespace CodeHealth.Proofs.JsonLeaves

open CodeHealth.Json CodeHealth.Proofs.JsonText

lemma bind_eq_ok {ε α β : Type} {x : Except ε α} {f : α → Except ε β} {b : β} :
    (x >>= f) = .ok b ↔ ∃ a, x = .ok a ∧ f a = .ok b := by
  cases x with
  | error e => simp [bind, Except.bind]
  | ok a => simp [bind, Except.bind]

lemma map_eq_ok {ε α β : Type} {x : Except ε α} {f : α → β} {b : β} :
    x.map f = .ok b ↔ ∃ a, x = .ok a ∧ f a = b := by
  cases x with
  | error e => simp [Except.map]
  | ok a => simp [Except.map]

/-! ### Blanks and words -/

lemma skipSpace_append {ws : List Char} (h : Spaces ws) (cs : List Char) :
    skipSpace (ws ++ cs) = skipSpace cs := by
  rw [skipSpace, List.dropWhile_append_of_pos h, skipSpace]

lemma skipSpace_cons {c : Char} (h : isSpace c = false) (cs : List Char) :
    skipSpace (c :: cs) = c :: cs := by
  rw [skipSpace, List.dropWhile_cons_of_neg (by simp [h])]

lemma exists_spaces (cs : List Char) : ∃ ws, Spaces ws ∧ cs = ws ++ skipSpace cs :=
  ⟨cs.takeWhile isSpace, fun _ => List.mem_takeWhile_imp, List.takeWhile_append_dropWhile.symm⟩

lemma skipSpace_eq_nil_iff {cs : List Char} : skipSpace cs = [] ↔ Spaces cs := by
  simp [skipSpace, Spaces, List.dropWhile_eq_nil_iff]

lemma readWord_eq_ok {w cs r : List Char} : readWord w cs = .ok r ↔ cs = w ++ r := by
  induction w generalizing cs with
  | nil => simp [readWord]
  | cons x w ih =>
    cases cs with
    | nil => simp [readWord, stopAt]
    | cons c cs =>
      by_cases hc : c = x
      · simp [readWord, hc, ih]
      · simp [readWord, hc, stopBefore]

/-! ### Escapes -/

lemma readHex_append {hs : List Char} {n : ℕ} (h : Unit16 hs n) (t : List Char) :
    readHex (hs ++ t) = .ok n := by
  cases h with
  | mk ha hb hc hd => simp [readHex, ha, hb, hc, hd]

lemma unit16_of_readHex {cs : List Char} {n : ℕ} (h : readHex cs = .ok n) :
    ∃ hs t, cs = hs ++ t ∧ Unit16 hs n := by
  unfold readHex at h
  simp only at h
  split at h
  · next w x y z hmap =>
    match cs, hmap with
    | [], hmap => simp at hmap
    | [a], hmap => simp [Option.bind_eq_some_iff] at hmap
    | [a, b], hmap => simp [Option.bind_eq_some_iff] at hmap
    | [a, b, c], hmap => simp [Option.bind_eq_some_iff] at hmap
    | a :: b :: c :: d :: t, hmap =>
      simp only [List.take, List.mapM_cons, List.mapM_nil, Option.bind_eq_bind, Option.pure_def,
        Option.bind_eq_some_iff, Option.some.injEq] at hmap
      obtain ⟨_, ha, _, ⟨_, hb, _, ⟨_, hc, _, ⟨_, hd, _, rfl, rfl⟩, rfl⟩, rfl⟩, hv⟩ := hmap
      simp only [List.cons.injEq, and_true] at hv
      obtain ⟨rfl, rfl, rfl, rfl⟩ := hv
      cases h
      exact ⟨[a, b, c, d], t, rfl, .mk ha hb hc hd⟩
  · split at h <;> cases h

lemma length_of_unit16 {hs : List Char} {n : ℕ} (h : Unit16 hs n) : hs.length = 4 := by
  cases h
  rfl

lemma readUnicode_append {hs : List Char} {d : Char} (h : Unicode hs d) (t : List Char) :
    readUnicode (hs ++ t) = .ok (d, hs.length) := by
  cases h with
  | single hn ht hl =>
    rw [readUnicode, readHex_append hn, length_of_unit16 hn]
    simp [bind, Except.bind, ht, hl, pure, Except.pure]
  | @pair hs ls n m hn ht hl hm hmt =>
    rw [List.append_assoc, readUnicode, readHex_append hn]
    simp [bind, Except.bind, ht, hl, List.drop_left' (length_of_unit16 hn), readHex_append hm, hmt,
      length_of_unit16 hn, length_of_unit16 hm, pure, Except.pure]

lemma unicode_of_readUnicode {cs : List Char} {d : Char} {k : ℕ}
    (h : readUnicode cs = .ok (d, k)) : ∃ hs t, cs = hs ++ t ∧ Unicode hs d ∧ k = hs.length := by
  obtain ⟨n, hn, h⟩ := bind_eq_ok.mp h
  obtain ⟨hs, t, rfl, hu⟩ := unit16_of_readHex hn
  cases ht : isTrailing n with
  | true => simp [ht] at h
  | false =>
    cases hl : isLeading n with
    | false =>
      simp only [ht, hl, Bool.false_eq_true, if_false] at h
      cases h
      exact ⟨hs, t, rfl, .single hu ht hl, (length_of_unit16 hu).symm⟩
    | true =>
      -- the first half of a pair, so the second half has to follow
      simp only [ht, hl, Bool.false_eq_true, if_false, if_true,
        List.drop_left' (length_of_unit16 hu)] at h
      split at h
      · cases h
      · cases h
      · next rest =>
        obtain ⟨m, hm, h⟩ := bind_eq_ok.mp h
        obtain ⟨ls, t, rfl, hv⟩ := unit16_of_readHex hm
        split at h
        · next hmt =>
          simp only [pure, Except.pure, Except.ok.injEq, Prod.mk.injEq] at h
          obtain ⟨rfl, rfl⟩ := h
          refine ⟨hs ++ '\\' :: 'u' :: ls, t, by simp, .pair hu ht hl hv hmt, ?_⟩
          simp [length_of_unit16 hu, length_of_unit16 hv]
        · cases h
      · cases h
      · cases h

lemma readEscape_append {e : List Char} {d : Char} (h : Escape e d) (t : List Char) :
    readEscape (e ++ t) = .ok (d, e.length) := by
  cases h with
  | @letter c _ hc =>
    by_cases hu : c = 'u'
    · subst hu
      simp [escaped?] at hc
    · simp [readEscape, hc]
  | unicode hs => simp [readEscape, readUnicode_append hs, Except.map]

lemma escape_of_readEscape {cs : List Char} {d : Char} {k : ℕ} (h : readEscape cs = .ok (d, k)) :
    ∃ e t, cs = e ++ t ∧ Escape e d ∧ k = e.length := by
  unfold readEscape at h
  split at h
  · cases h
  · next cs =>
    obtain ⟨⟨c, n⟩, hu, h⟩ := map_eq_ok.mp h
    obtain ⟨hs, t, rfl, hd, rfl⟩ := unicode_of_readUnicode hu
    cases h
    exact ⟨'u' :: hs, t, rfl, .unicode hd, rfl⟩
  · next c cs _ =>
    split at h
    · next e he =>
      cases h
      exact ⟨[c], cs, rfl, .letter he, rfl⟩
    · cases h

/-! ### Strings -/

lemma readStringFrom_skip (u t : List Char) :
    readStringFrom u.length (u ++ t) = readStringFrom 0 t := by
  induction u with
  | nil => rfl
  | cons c u ih => simpa [readStringFrom] using ih

lemma readStringFrom_append {u ds : List Char} (h : Chars u ds) (t : List Char) :
    readStringFrom 0 (u ++ '"' :: t) = .ok (ds, t) := by
  induction h with
  | nil => simp [readStringFrom]
  | plain hq hb hc _ ih =>
    simp [readStringFrom, hq, hb, Nat.not_lt.mpr hc, ih, Except.map]
  | @escape e u ds d he _ ih =>
    simp [readStringFrom, readEscape_append he, readStringFrom_skip, ih, Except.map]

lemma chars_of_readStringFrom {cs ds rest : List Char}
    (h : readStringFrom 0 cs = .ok (ds, rest)) : ∃ u, cs = u ++ '"' :: rest ∧ Chars u ds := by
  -- by the length of the text, since an escape takes more than one character
  induction hn : cs.length using Nat.strong_induction_on generalizing cs ds with
  | _ n ih =>
    cases cs with
    | nil => simp [readStringFrom, stopAt] at h
    | cons c cs =>
      rw [readStringFrom] at h
      split at h
      · next hq =>
        cases h
        exact ⟨[], by rw [hq]; rfl, .nil⟩
      · next hq =>
        split at h
        · next hb =>
          split at h
          · next d k he =>
            obtain ⟨e, t, rfl, hd, rfl⟩ := escape_of_readEscape he
            rw [readStringFrom_skip] at h
            obtain ⟨⟨es, r⟩, hr, h⟩ := map_eq_ok.mp h
            cases h
            have hlen : t.length < n := by
              simp only [← hn, List.length_cons, List.length_append]
              omega
            obtain ⟨u, rfl, hu⟩ := ih t.length hlen hr rfl
            exact ⟨'\\' :: (e ++ u), by simp [hb], .escape hd hu⟩
          · cases h
        · next hb =>
          split at h
          · cases h
          · next hc =>
            obtain ⟨⟨es, r⟩, hr, h⟩ := map_eq_ok.mp h
            cases h
            obtain ⟨u, rfl, hu⟩ := ih cs.length (hn ▸ Nat.lt_succ_self _) hr rfl
            exact ⟨c :: u, rfl, .plain hq hb (Nat.not_lt.mp hc) hu⟩

lemma readString_append {u ds : List Char} (h : Chars u ds) (t : List Char) :
    readString (u ++ '"' :: t) = .ok (String.ofList ds, t) := by
  rw [readString, readStringFrom_append h]
  rfl

lemma chars_of_readString {cs rest : List Char} {s : String}
    (h : readString cs = .ok (s, rest)) :
    ∃ u ds, cs = u ++ '"' :: rest ∧ Chars u ds ∧ s = String.ofList ds := by
  obtain ⟨⟨ds, r⟩, hr, h⟩ := map_eq_ok.mp h
  cases h
  obtain ⟨u, hu, hds⟩ := chars_of_readStringFrom hr
  exact ⟨u, ds, hu, hds, rfl⟩

/-! ### Numbers -/

/-- No character of the given kind stands at the front. -/
def Stops (p : Char → Bool) (t : List Char) : Prop := ∀ c ∈ t.head?, p c = false

/-- A character that may continue a number. -/
def isNumberChar (c : Char) : Bool := c.isDigit || c == '.' || c == 'e' || c == 'E'

lemma not_isNumberChar_of_isSpace {c : Char} (h : isSpace c = true) : isNumberChar c = false := by
  simp only [isSpace, Bool.or_eq_true, beq_iff_eq] at h
  rcases h with ((rfl | rfl) | rfl) | rfl <;> rfl

lemma not_isSpace_of_isDigit {c : Char} (h : c.isDigit = true) : isSpace c = false := by
  by_contra hs
  have := not_isNumberChar_of_isSpace (Bool.not_eq_false _ ▸ hs)
  simp [isNumberChar, h] at this

lemma Stops.append {p : Char → Bool} {u t : List Char} (hu : Stops p u) (ht : Stops p t) :
    Stops p (u ++ t) := by
  cases u with
  | nil => exact ht
  | cons c u => exact hu

lemma Stops.digit {t : List Char} (h : Stops isNumberChar t) : Stops Char.isDigit t := by
  intro c hc
  have := h c hc
  simp only [isNumberChar, Bool.or_eq_false_iff] at this
  exact this.1.1.1

lemma takeWhile_append_stops {p : Char → Bool} {ds t : List Char} (h : ∀ c ∈ ds, p c = true)
    (ht : Stops p t) : (ds ++ t).takeWhile p = ds := by
  rw [List.takeWhile_append_of_pos h]
  cases t with
  | nil => simp
  | cons c t => rw [List.takeWhile_cons_of_neg (by simp [ht c rfl]), List.append_nil]

lemma dropWhile_append_stops {p : Char → Bool} {ds t : List Char} (h : ∀ c ∈ ds, p c = true)
    (ht : Stops p t) : (ds ++ t).dropWhile p = t := by
  rw [List.dropWhile_append_of_pos h]
  cases t with
  | nil => rfl
  | cons c t => rw [List.dropWhile_cons_of_neg (by simp [ht c rfl])]

lemma digits_takeWhile {c : Char} {cs : List Char} (hc : c.isDigit = true) :
    Digits ((c :: cs).takeWhile Char.isDigit) :=
  ⟨by simp [hc], fun _ => List.mem_takeWhile_imp⟩

lemma exists_cons_of_digits {ds : List Char} (h : Digits ds) :
    ∃ c cs, ds = c :: cs ∧ c.isDigit = true := by
  obtain ⟨hne, hd⟩ := h
  cases ds with
  | nil => exact absurd rfl hne
  | cons c cs => exact ⟨c, cs, rfl, hd c List.mem_cons_self⟩

lemma readExponent_append {s ds t : List Char} {down : Bool} (hs : Sign s down) (hd : Digits ds)
    (ht : Stops Char.isDigit t) : readExponent (s ++ (ds ++ t)) = .ok ((down, ds), t) := by
  have htake := takeWhile_append_stops hd.2 ht
  have hdrop := dropWhile_append_stops hd.2 ht
  obtain ⟨c, cs, rfl, hc⟩ := exists_cons_of_digits hd
  rw [List.cons_append] at htake hdrop
  cases hs with
  | none =>
    have hplus : c ≠ '+' := by rintro rfl; simp at hc
    have hminus : c ≠ '-' := by rintro rfl; simp at hc
    simp [readExponent, hplus, hminus, hc, htake, hdrop]
  | plus => simp [readExponent, hc, htake, hdrop]
  | minus => simp [readExponent, hc, htake, hdrop]

lemma exponent_of_readExponent {cs r ds : List Char} {down : Bool}
    (h : readExponent cs = .ok ((down, ds), r)) :
    ∃ s, cs = s ++ ds ++ r ∧ Sign s down ∧ Digits ds := by
  unfold readExponent at h
  split at h
  next down' rest heq =>
  obtain ⟨s, rfl, hs⟩ : ∃ s, cs = s ++ rest ∧ Sign s down' := by
    split at heq <;> cases heq
    · exact ⟨['+'], rfl, .plus⟩
    · exact ⟨['-'], rfl, .minus⟩
    · exact ⟨[], rfl, .none⟩
  split at h
  · cases h
  · next c rest =>
    split at h
    · next hc =>
      cases h
      refine ⟨s, ?_, hs, digits_takeWhile hc⟩
      rw [List.append_assoc, List.takeWhile_append_dropWhile]
    · cases h

lemma readExponent?_append {u t : List Char} {e : Option (Bool × List Char)} (h : Exponent u e)
    (ht : Stops isNumberChar t) : readExponent? (u ++ t) = .ok (e, t) := by
  cases h with
  | none =>
    cases t with
    | nil => rfl
    | cons c t =>
      have hc := ht c rfl
      have he : c ≠ 'e' := by rintro rfl; simp [isNumberChar] at hc
      have hE : c ≠ 'E' := by rintro rfl; simp [isNumberChar] at hc
      simp [readExponent?, he, hE]
  | some he hs hd =>
    have hread := readExponent_append hs hd ht.digit
    rcases he with rfl | rfl <;> simp [readExponent?, hread, Except.map]

lemma exponent_of_readExponent? {cs r : List Char} {e : Option (Bool × List Char)}
    (h : readExponent? cs = .ok (e, r)) : ∃ u, cs = u ++ r ∧ Exponent u e := by
  have key : ∀ {c : Char} {rest : List Char}, c = 'e' ∨ c = 'E' →
      (readExponent rest).map (fun x => (some x.1, x.2)) = .ok (e, r) →
      ∃ u, c :: rest = u ++ r ∧ Exponent u e := by
    intro c rest hc h
    obtain ⟨⟨⟨down, ds⟩, r⟩, hr, h⟩ := map_eq_ok.mp h
    cases h
    obtain ⟨s, rfl, hs, hd⟩ := exponent_of_readExponent hr
    exact ⟨c :: (s ++ ds), rfl, .some hc hs hd⟩
  unfold readExponent? at h
  split at h
  · exact key (.inl rfl) h
  · exact key (.inr rfl) h
  · cases h
    exact ⟨[], rfl, .none⟩

lemma stops_of_exponent {u : List Char} {e : Option (Bool × List Char)} (h : Exponent u e) :
    Stops (fun c => c.isDigit || c == '.') u := by
  cases h with
  | none => simp [Stops]
  | some he => rcases he with rfl | rfl <;> simp [Stops]

lemma readFraction?_append {u t : List Char} {f : Option (List Char)} (h : Fraction u f)
    (ht : Stops (fun c => c.isDigit || c == '.') t) : readFraction? (u ++ t) = .ok (f, t) := by
  cases h with
  | none =>
    cases t with
    | nil => rfl
    | cons c t =>
      have hc := ht c rfl
      have hdot : c ≠ '.' := by rintro rfl; simp at hc
      simp [readFraction?, hdot]
  | @some ds hd =>
    have hstop : Stops Char.isDigit t := fun c hc => (Bool.or_eq_false_iff.mp (ht c hc)).1
    have htake := takeWhile_append_stops hd.2 hstop
    have hdrop := dropWhile_append_stops hd.2 hstop
    simp [readFraction?, htake, hdrop, hd.1]

lemma fraction_of_readFraction? {cs r : List Char} {f : Option (List Char)}
    (h : readFraction? cs = .ok (f, r)) : ∃ u, cs = u ++ r ∧ Fraction u f := by
  unfold readFraction? at h
  split at h
  · next rest =>
    simp only at h
    split at h
    · split at h <;> cases h
    · next hne =>
      cases h
      refine ⟨'.' :: rest.takeWhile Char.isDigit, ?_, .some ⟨?_, ?_⟩⟩
      · rw [List.cons_append, List.takeWhile_append_dropWhile]
      · simpa using hne
      · exact fun _ => List.mem_takeWhile_imp
  · cases h
    exact ⟨[], rfl, .none⟩

lemma readNumeral_append {negative : Bool} {u t : List Char} {n : Numeral}
    (h : Unsigned negative u n) (ht : Stops isNumberChar t) :
    readNumeral negative (u ++ t) = .ok (n, t) := by
  obtain ⟨hw, hf, he⟩ := h
  next w f e fraction exponent =>
  have hte : Stops (fun c => c.isDigit || c == '.') (e ++ t) := by
    refine (stops_of_exponent he).append fun c hc => ?_
    have := ht c hc
    simp only [isNumberChar, Bool.or_eq_false_iff] at this ⊢
    exact this.1.1
  have hexp := readExponent?_append he ht
  have hfrac := readFraction?_append hf hte
  have hrest : Stops Char.isDigit (f ++ (e ++ t)) := by
    refine Stops.append ?_ fun c hc => (Bool.or_eq_false_iff.mp (hte c hc)).1
    cases hf <;> simp [Stops]
  -- a leading zero stands alone before the fraction
  cases hw with
  | zero =>
    rw [List.append_assoc, List.append_assoc]
    generalize f ++ (e ++ t) = r at hfrac hrest
    have hhead : r.head?.any Char.isDigit = false := by
      cases r with
      | nil => rfl
      | cons c r => exact hrest c rfl
    simp [readNumeral, hhead, hfrac, hexp, bind, Except.bind, pure, Except.pure]
  | digits hd hz =>
    have htake := takeWhile_append_stops hd.2 hrest
    have hdrop := dropWhile_append_stops hd.2 hrest
    obtain ⟨c, cs, rfl, hc⟩ := exists_cons_of_digits hd
    have hzero : c ≠ '0' := by simpa using hz
    rw [List.cons_append] at htake hdrop
    simp [readNumeral, hc, htake, hdrop, hfrac, hexp, bind, Except.bind, pure, Except.pure]

lemma unsigned_of_rest {negative : Bool} {w cs r : List Char} {n : Numeral} (hw : Whole w)
    (h : (do
      let (fraction, rest) ← readFraction? cs
      let (exponent, rest) ← readExponent? rest
      pure (⟨negative, w, fraction, exponent⟩, rest)) = (.ok (n, r) : Except Stop _)) :
    ∃ u, w ++ cs = u ++ r ∧ Unsigned negative u n := by
  obtain ⟨⟨f, r₁⟩, hf, h⟩ := bind_eq_ok.mp h
  obtain ⟨⟨e, r₂⟩, he, h⟩ := bind_eq_ok.mp h
  cases h
  obtain ⟨u, rfl, hu⟩ := fraction_of_readFraction? hf
  obtain ⟨v, rfl, hv⟩ := exponent_of_readExponent? he
  exact ⟨w ++ (u ++ v), by simp, .mk hw hu hv⟩

lemma unsigned_of_readNumeral {negative : Bool} {cs r : List Char} {n : Numeral}
    (h : readNumeral negative cs = .ok (n, r)) : ∃ u, cs = u ++ r ∧ Unsigned negative u n := by
  unfold readNumeral at h
  split at h
  · cases h
  · split at h
    · cases h
    · exact unsigned_of_rest .zero h
  · next c cs hz =>
    split at h
    · next hc =>
      have hw : Whole ((c :: cs).takeWhile Char.isDigit) := by
        refine .digits (digits_takeWhile hc) ?_
        rw [List.takeWhile_cons_of_pos hc]
        simpa using hz
      simpa only [List.takeWhile_append_dropWhile] using unsigned_of_rest hw h
    · cases h

lemma readNumber_append {negative : Bool} {u t : List Char} {j : Json} (h : Number negative u j)
    (ht : Stops isNumberChar t) : readNumber negative (u ++ t) = .ok (j, t) := by
  obtain ⟨n, hn, hj⟩ := h
  simp [readNumber, readNumeral_append hn ht, hj, bind, Except.bind, pure, Except.pure]

lemma number_of_readNumber {negative : Bool} {cs r : List Char} {j : Json}
    (h : readNumber negative cs = .ok (j, r)) : ∃ u, cs = u ++ r ∧ Number negative u j := by
  unfold readNumber at h
  obtain ⟨⟨n, r'⟩, hn, hj⟩ := bind_eq_ok.mp h
  obtain ⟨u, rfl, hu⟩ := unsigned_of_readNumeral hn
  simp only at hj
  split at hj
  · next j' hj' =>
    cases hj
    exact ⟨u, rfl, n, hu, hj'⟩
  · cases hj

/-- Whether a value is a number, whose text may go on. -/
def IsNumber : Json → Prop
  | .integer _ => True
  | .float _ => True
  | _ => False

lemma isNumber_of_number {negative : Bool} {u : List Char} {j : Json} (h : Number negative u j) :
    IsNumber j := by
  obtain ⟨n, -, hj⟩ := h
  have key (p : Prop) [Decidable p] (k : Int)
      (h : (if p then some (.integer k) else n.toFloat?.map .float) = some j) : IsNumber j := by
    split at h
    · cases h
      trivial
    · obtain ⟨x, -, rfl⟩ := Option.map_eq_some_iff.mp h
      trivial
  exact key _ _ hj

lemma exists_fields_of_object {d : ℕ} {fs : List (String × Json)} {u : List Char}
    (h : Written d (.value (.object fs)) u) :
    ∃ d' v ws, Written d' (.fields true fs) v ∧ Spaces ws ∧
      u = '\x7b' :: (v ++ (ws ++ ['\x7d'])) := by
  cases h with
  | object hv hws => exact ⟨_, _, _, hv, hws, rfl⟩
  | number h => exact (isNumber_of_number h).elim
  | negative h => exact (isNumber_of_number h).elim

lemma exists_cons_of_unsigned {negative : Bool} {u : List Char} {n : Numeral}
    (h : Unsigned negative u n) : ∃ c cs, u = c :: cs ∧ c.isDigit = true := by
  obtain ⟨hw, -, -⟩ := h
  cases hw with
  | zero => exact ⟨'0', _, rfl, rfl⟩
  | digits hd =>
    obtain ⟨c, cs, rfl, hc⟩ := exists_cons_of_digits hd
    exact ⟨c, _, rfl, hc⟩

end CodeHealth.Proofs.JsonLeaves
