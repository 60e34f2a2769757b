import CodeHealth.Proofs.BracketCounts
import CodeHealth.Proofs.Recognition
import CodeHealth.Proofs.Utf8Bytes
import CodeHealth.Text.Bracket
import CodeHealth.Text.Tag

/-!
Scans of bytes find what is found among characters.

Brackets and blanks are ASCII characters, so the bytes of any other character are passed over. That
holds for every offset: one inside a character has no bracket at it.
-/

namespace CodeHealth.Proofs.ByteScans

open CodeHealth.Text CodeHealth.Proofs.BracketCounts CodeHealth.Proofs.Recognition
  CodeHealth.Proofs.Utf8Bytes

/-! ### Brackets -/

lemma closeFrom_append {opener closer : UInt8} (ho : IsLow opener) (hc : IsLow closer)
    {high : List UInt8} (h : ∀ b ∈ high, ¬ IsLow b) (depth offset : ℕ) (bs : List UInt8) :
    closeFrom opener closer depth offset (high ++ bs) =
      closeFrom opener closer depth (offset + high.length) bs := by
  induction high generalizing offset with
  | nil => rfl
  | cons b high ih =>
    have hb := h b List.mem_cons_self
    have hne : ∀ {d : UInt8}, IsLow d → b ≠ d := fun hd he => hb (he ▸ hd)
    rw [List.cons_append, closeFrom, if_neg (hne ho), if_neg (hne hc),
      ih fun b' hb' => h b' (List.mem_cons_of_mem b hb'),
      List.length_cons, Nat.add_assoc, Nat.add_comm 1]

/-- Inside a bracket the bytes come to what the characters come to. -/
lemma closeFrom_bytes {opener closer : Char} (ho : IsAscii opener) (hc : IsAscii closer)
    {depth : ℕ} (hdepth : 0 < depth) (offset : ℕ) (text : List Char) :
    closeFrom opener.toUInt8 closer.toUInt8 depth offset (bytes text) =
      .ok ((closeWithin opener closer depth text).map fun k => offset + offsetAt text k) := by
  induction text generalizing depth offset with
  | nil => rfl
  | cons c cs ih =>
    have hmap : ∀ found : Option ℕ,
        (found.map (· + 1)).map (fun k => offset + offsetAt (c :: cs) k) =
          found.map fun k => offset + c.utf8Size + offsetAt cs k := by
      intro found
      rw [Option.map_map]
      congr 1
      funext k
      simp [Nat.add_assoc]
    -- an ASCII character is one byte, and the bytes of any other are no brackets
    by_cases hascii : IsAscii c
    · rw [utf8Size_of_isAscii hascii] at hmap
      rw [bytes_cons, encode_of_isAscii hascii, List.singleton_append, closeFrom, closeWithin]
      simp only [toUInt8_inj hascii ho, toUInt8_inj hascii hc]
      split_ifs with h1 h2 h3
      · rw [ih (Nat.succ_pos depth), hmap]
      · obtain rfl : depth = 1 := by omega
        rfl
      · have hpos : 0 < depth - 1 := by omega
        rw [minus_of_le hdepth]
        change (if depth - 1 = 0 then _ else _) = _
        rw [if_neg hpos.ne', ih hpos, hmap]
      · rw [ih hdepth, hmap]
    · have hne : ∀ {d : Char}, IsAscii d → c ≠ d := fun hd he => hascii (he ▸ hd)
      rw [bytes_cons, closeFrom_append (isLow_toUInt8 ho) (isLow_toUInt8 hc)
        fun b => not_isLow_of_mem_encode hascii, String.length_utf8EncodeChar, ih hdepth,
        closeWithin, if_neg (hne ho), if_neg (hne hc), hmap]

/-- Outside all brackets the closing one would be one too many. -/
example : closeFrom '('.toUInt8 ')'.toUInt8 0 0 [')'.toUInt8] = .error .difference := by decide

lemma isAscii_of_closerOf {c d : Char} (h : closerOf c = some d) : IsAscii c ∧ IsAscii d := by
  unfold closerOf at h
  split at h <;> simp_all <;> subst h <;> decide

lemma closerByte?_toUInt8 {c : Char} (h : IsAscii c) :
    closerByte? c.toUInt8 = (closerOf c).map Char.toUInt8 := by
  simp only [closerByte?, toUInt8_inj h (show IsAscii '(' by decide),
    toUInt8_inj h (show IsAscii '[' by decide), toUInt8_inj h (show IsAscii '\x7b' by decide)]
  split_ifs with h1 h2 h3
  · subst h1; rfl
  · subst h2; rfl
  · subst h3; rfl
  · rw [closerOf.eq_def]
    split <;> first | contradiction | rfl

lemma isLow_of_closerByte? {b d : UInt8} (h : closerByte? b = some d) : IsLow b := by
  unfold closerByte? at h
  split_ifs at h with h1 h2 h3 <;> subst b <;> decide

lemma closeOf_opener {c d : Char} (h : closerOf c = some d) (lead rest : List Char) :
    closeOf (lead ++ c :: rest) (byteLength lead) =
      .ok ((closeWithin c d 1 rest).map fun k => byteLength lead + 1 + offsetAt rest k) := by
  obtain ⟨hc, hd⟩ := isAscii_of_closerOf h
  have hdrop : (bytes (lead ++ c :: rest)).drop (byteLength lead) = c.toUInt8 :: bytes rest := by
    rw [bytes_append, List.drop_left' (length_bytes lead), bytes_cons, encode_of_isAscii hc]
    rfl
  simp only [closeOf, getElem?_bytes_of_isAscii hc, closerByte?_toUInt8 hc, h, Option.map_some]
  rw [hdrop, closeFrom.eq_2, if_pos rfl, closeFrom_bytes hc hd Nat.one_pos]

lemma closeOf_other {text : List Char} {opening : ℕ}
    (h : ∀ lead c rest, splitAtByte opening text = some (lead, c :: rest) → closerOf c = none) :
    closeOf text opening = .ok none := by
  unfold closeOf
  cases hbyte : (bytes text)[opening]? with
  | none => rfl
  | some b =>
    cases hcloser : closerByte? b with
    | none =>
      simp only [hcloser]
      rfl
    | some d =>
      obtain ⟨lead, c, rest, rfl, rfl, hc, rfl⟩ :=
        exists_of_getElem?_bytes hbyte (isLow_of_closerByte? hcloser)
      rw [closerByte?_toUInt8 hc, h lead c rest (splitAtByte_byteLength lead _)] at hcloser
      cases hcloser

/-- **The brackets that close are found among bytes as among characters**, whatever the offset. -/
theorem closeOf_cases (text : List Char) (opening : ℕ) :
    closeOf text opening = .ok none ∨
      ∃ lead c d rest k, text = lead ++ c :: rest ∧ byteLength lead = opening ∧
        closerOf c = some d ∧ closeWithin c d 1 rest = some k ∧
        closeOf text opening = .ok (some (opening + 1 + offsetAt rest k)) := by
  by_cases hopens : ∃ lead c rest d, splitAtByte opening text = some (lead, c :: rest) ∧
      closerOf c = some d
  · obtain ⟨lead, c, rest, d, hsplit, hd⟩ := hopens
    obtain ⟨rfl, rfl⟩ := eq_of_splitAtByte hsplit
    have hclose := closeOf_opener hd lead rest
    cases hwithin : closeWithin c d 1 rest with
    | none =>
      rw [hwithin] at hclose
      exact .inl hclose
    | some k =>
      rw [hwithin] at hclose
      exact .inr ⟨lead, c, d, rest, k, rfl, rfl, hd, hwithin, hclose⟩
  · refine .inl (closeOf_other fun lead c rest hsplit => ?_)
    rw [Option.eq_none_iff_forall_ne_some]
    exact fun d hd => hopens ⟨lead, c, rest, d, hsplit, hd⟩

lemma exists_closeOf (text : List Char) (opening : ℕ) :
    ∃ found, closeOf text opening = .ok found := by
  rcases closeOf_cases text opening with hnone | ⟨_, _, _, _, _, _, _, _, _, hclose⟩
  · exact ⟨none, hnone⟩
  · exact ⟨_, hclose⟩

lemma exists_of_closeOf {text : List Char} {opening closing : ℕ}
    (h : closeOf text opening = .ok (some closing)) :
    opening < closing ∧ ∃ before c d behind, text = before ++ d :: behind ∧
      byteLength before = closing ∧ closerOf c = some d := by
  rcases closeOf_cases text opening with hnone | ⟨lead, c, d, rest, k, rfl, rfl, hd, hk, hclose⟩
  · cases h.symm.trans hnone
  · obtain rfl := Option.some.inj (Except.ok.inj (h.symm.trans hclose))
    obtain ⟨hlt, hat⟩ := List.getElem?_eq_some_iff.mp (getElem?_of_closeWithin hk)
    refine ⟨by omega, lead ++ c :: rest.take k, c, d, rest.drop (k + 1), ?_, ?_, hd⟩
    · rw [List.append_assoc, List.cons_append, ← hat, List.cons_getElem_drop_succ,
        List.take_append_drop]
    · rw [byteLength_append, byteLength_cons, utf8Size_of_isAscii (isAscii_of_closerOf hd).1,
        Nat.add_assoc]
      rfl

/-! ### Attributes -/

/-- Whether `name` stands as an attribute in a text that comes after `before`. Occurrences are
sought from left to right and do not overlap: `skip` characters still belong to the last one. -/
def hasAttributeAfter (name : List Char) : Option Char → ℕ → List Char → Bool
  | _, _, [] => false
  | _, skip + 1, c :: cs => hasAttributeAfter name (some c) skip cs
  | before, 0, c :: cs =>
    if name.isPrefixOf (c :: cs) then
      (before.all isAsciiBlank && followsName ((c :: cs).drop name.length)) ||
        hasAttributeAfter name (some c) (name.length - 1) cs
    else hasAttributeAfter name (some c) 0 cs

lemma isAsciiBlankByte_eq {b : UInt8} {c : Char} (h : StandsFor b c) :
    isAsciiBlankByte b = isAsciiBlank c := by
  rw [isAsciiBlankByte, isAsciiBlank, h.beq_eq (by decide), h.beq_eq (by decide),
    h.beq_eq (by decide), h.beq_eq (by decide), h.beq_eq (by decide)]

lemma isNameAt_eq (lead name tail : List Char) :
    isNameAt (lead ++ (name ++ tail)) name (byteLength lead) =
      .ok (lead.getLast?.all isAsciiBlank && followsName tail) := by
  have hrest : sliceFrom (byteLength lead + byteLength name) (lead ++ (name ++ tail)) =
      .ok tail := by
    rw [sliceFrom, ← byteLength_append, ← List.append_assoc, splitAtByte_byteLength]
  rw [isNameAt, hrest]
  rcases List.eq_nil_or_concat' lead with rfl | ⟨lead, c, rfl⟩
  · rfl
  · have hpos := c.utf8Size_pos
    have hlength : byteLength (lead ++ [c]) = byteLength lead + c.utf8Size := by simp
    have hat : (lead ++ [c] ++ (name ++ tail))[lead.length]? = some c := by simp
    -- the last byte of the character before the name
    obtain ⟨b, hbyte, hstands⟩ := exists_byte hat (k := c.utf8Size - 1) (by omega)
    rw [List.append_assoc, offsetAt_length, ← List.append_assoc] at hbyte
    have hread : readAt (bytes (lead ++ [c] ++ (name ++ tail))) (byteLength (lead ++ [c]) - 1) =
        .ok b := by
      rw [readAt, hlength, Nat.add_sub_assoc hpos, hbyte]
    rw [if_neg (by omega), minus_of_le (by omega)]
    change (isAsciiBlankByte <$> readAt _ _ >>= _) = _
    rw [hread, List.getLast?_concat, Option.all_some, ← isAsciiBlankByte_eq hstands]
    rfl

lemma anyM_isNameAt {name : List Char} (hname : name ≠ []) (lead rest : List Char) (skip : ℕ) :
    ((occurrencesFrom (fun _ rest => (afterWord? name rest).map ((), ·)) lead.getLast? lead.length
        skip rest).map fun (i, _) => offsetAt (lead ++ rest) i).anyM
        (isNameAt (lead ++ rest) name) =
      .ok (hasAttributeAfter name lead.getLast? skip rest) := by
  induction rest generalizing lead skip with
  | nil => cases skip <;> rfl
  | cons c cs ih =>
    -- the rest of the search, with this character put into the text before
    have hmore : ∀ k, ((occurrencesFrom (fun _ rest => (afterWord? name rest).map ((), ·)) (some c)
        (lead.length + 1) k cs).map fun (i, _) => offsetAt (lead ++ c :: cs) i).anyM
        (isNameAt (lead ++ c :: cs) name) = .ok (hasAttributeAfter name (some c) k cs) := by
      intro k
      have h := ih (lead ++ [c]) k
      rwa [List.getLast?_concat, List.length_append, List.append_assoc] at h
    cases skip with
    | succ skip => exact hmore skip
    | zero =>
      cases hword : afterWord? name (c :: cs) with
      | none =>
        have hprefix : ¬ name.isPrefixOf (c :: cs) = true := by
          intro h
          rw [afterWord?, if_pos h] at hword
          cases hword
        simp only [occurrencesFrom, hword, Option.map_none]
        rw [hmore, hasAttributeAfter, if_neg hprefix]
      | some tail =>
        have hcs := afterWord?_eq_some.mp hword
        have hprefix : name.isPrefixOf (c :: cs) = true := by
          rw [hcs]
          exact List.isPrefixOf_iff_prefix.mpr (List.prefix_append name tail)
        -- both go on behind the name
        have hskip : cs.length - tail.length = name.length - 1 := by
          have hlen := congrArg List.length hcs
          have hpos := List.length_pos_of_ne_nil hname
          rw [List.length_cons, List.length_append] at hlen
          omega
        simp only [occurrencesFrom, hword, Option.map_some, List.map_cons, offsetAt_length]
        rw [List.anyM_cons, hmore, hskip, hasAttributeAfter, if_pos hprefix, hcs, isNameAt_eq,
          List.drop_left]
        cases lead.getLast?.all isAsciiBlank && followsName tail <;> rfl

/-- **Attributes are found at byte offsets as among characters.** -/
theorem findsAttribute_eq {name : List Char} (hname : name ≠ []) (tag : List Char) :
    findsAttribute tag name = .ok (hasAttributeAfter name none 0 tag) := by
  rw [findsAttribute, offsetsOf, occurrences]
  exact anyM_isNameAt hname [] tag 0

end CodeHealth.Proofs.ByteScans
