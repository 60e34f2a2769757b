import CodeHealth.Proofs.ProseReading

/-!
Arrays of suggestions in prose.

An array is found by its name, whatever lines stand before it, as long as none of them has the name.
It is cut at the first closing bracket, and quotes do not protect one; so of the items those come
back that stand before the first one with a closing bracket in it.
-/

namespace CodeHealth.Proofs.QuotedArrays

open CodeHealth.Advice CodeHealth.Text CodeHealth.Proofs.ReplyText CodeHealth.Proofs.ProseReading

def arrayName : List Char := "suggestions".toList

/-- Whether a word stands somewhere in a text, in any letter case. -/
def mentions (word : List Char) : List Char → Bool
  | [] => word.isEmpty
  | c :: cs => (afterCaseless? word (c :: cs)).isSome || mentions word cs

/-- A text that is nothing or ends with its last line. -/
def IsLines (t : List Char) : Prop := t = [] ∨ t.getLast? = some '\n'

/-- An item of an array: it says something, has no blanks around it, and all of its characters stand
for themselves between quotes. -/
structure IsItem (s : List Char) : Prop where
  saying : ¬ Blank s
  trimmed : trim s = s
  quote : '"' ∉ s
  backslash : '\\' ∉ s

def quoted (s : List Char) : List Char := '"' :: (s ++ ['"'])

/-- Items in quotes, with a comma and a blank between them. -/
def itemsText : List (List Char) → List Char
  | [] => []
  | [s] => quoted s
  | s :: t :: ss => quoted s ++ ',' :: ' ' :: itemsText (t :: ss)

def arrayLead : List Char := arrayName ++ [':', ' ', '[']

def arrayText (items : List (List Char)) : List Char := arrayLead ++ (itemsText items ++ [']'])

/-- The items before the first one with a closing bracket in it. -/
def openItems (items : List (List Char)) : List (List Char) :=
  items.takeWhile fun s => !s.contains ']'

/-! ### The start of an array -/

section Start

variable {before : List Char}

lemma isLines_of_cons {c : Char} {t : List Char} (h : IsLines (c :: t)) : IsLines t := by
  cases t with
  | nil => exact .inl rfl
  | cons d t =>
    refine .inr ?_
    rcases h with h | h
    · cases h
    · rwa [List.getLast?_cons_cons] at h

lemma isSome_of_afterCaseless?_append {w s t : List Char} (hs : s.getLast? = some '\n')
    (hw : ∀ l ∈ w, isFormOf l '\n' = false) (h : (afterCaseless? w (s ++ t)).isSome = true) :
    (afterCaseless? w s).isSome = true := by
  induction w generalizing s with
  | nil => rfl
  | cons l w ih =>
    rw [List.forall_mem_cons] at hw
    cases s with
    | nil => cases hs
    | cons c s =>
      rw [List.cons_append, afterCaseless?] at h
      rw [afterCaseless?]
      split_ifs at h with hc
      · rw [if_pos hc]
        refine ih ?_ hw.2 h
        cases s with
        | nil =>
          obtain rfl : c = '\n' := by simpa using hs
          rw [hw.1] at hc
          cases hc
        | cons d s => rwa [List.getLast?_cons_cons] at hs
      · cases h

lemma arrayStart_none {c : Char} (hlines : IsLines (c :: before))
    (hsilent : mentions arrayName (c :: before) = false) (t : List Char) :
    arrayStart none (c :: (before ++ t)) = none := by
  have hname {s : List Char} (hlast : s.getLast? = some '\n')
      (hs : (afterCaseless? arrayName s).isSome = false) :
        afterCaseless? arrayName (s ++ t) = none := by
    by_contra hne
    have hall : arrayName.all (fun l => !isFormOf l '\n') = true := by decide
    have hbreak : ∀ l ∈ arrayName, isFormOf l '\n' = false := by simpa using hall
    have hsome := isSome_of_afterCaseless?_append hlast hbreak (Option.isSome_iff_ne_none.mpr hne)
    rw [hs] at hsome
    cases hsome
  rw [mentions, Bool.or_eq_false_iff] at hsilent
  have hlast : (c :: before).getLast? = some '\n' := hlines.resolve_left (List.cons_ne_nil c before)
  have hnone : afterCaseless? arrayName (dropOne '"' (c :: (before ++ t))) = none := by
    rw [dropOne]
    split_ifs with hc
    · -- a quote does not end a line, so something follows it
      cases before with
      | nil =>
        obtain rfl : c = '\n' := by simpa using hlast
        cases hc
      | cons d before =>
        rw [List.getLast?_cons_cons] at hlast
        rw [mentions, Bool.or_eq_false_iff] at hsilent
        exact hname hlast hsilent.2.1
    · exact hname hlast hsilent.1
  have hword : afterCaseless? "suggestions".toList (dropOne '"' (c :: (before ++ t))) = none :=
    hnone
  simp only [arrayStart, hword]

lemma afterArrayStart?_append (hlines : IsLines before)
    (hsilent : mentions arrayName before = false) (t : List Char) :
    afterArrayStart? (before ++ t) = afterArrayStart? t := by
  induction before with
  | nil => rfl
  | cons c before ih =>
    have hmore : mentions arrayName before = false := by
      rw [mentions, Bool.or_eq_false_iff] at hsilent
      exact hsilent.2
    rw [List.cons_append, afterArrayStart?, arrayStart_none hlines hsilent,
      ih (isLines_of_cons hlines) hmore]

lemma afterArrayStart?_lead (rest : List Char) :
    afterArrayStart? (arrayLead ++ rest) = some rest := rfl

end Start

/-! ### Texts in quotes -/

def quotedTexts (t : List Char) : List (List Char) := (occurrences quotedItem t).map (·.2)

lemma map_occurrencesFrom_quotedItem (b : Option Char) (i k : ℕ) (t : List Char) :
    (occurrencesFrom quotedItem b i k t).map (·.2) = quotedTexts (t.drop k) := by
  induction t generalizing b i k with
  | nil => cases k <;> rfl
  | cons c t ih =>
    cases k with
    | succ k => exact ih (some c) (i + 1) k
    | zero =>
      have hitem : quotedItem b (c :: t) = quotedItem none (c :: t) := rfl
      rw [quotedTexts, occurrences, List.drop_zero, occurrencesFrom, occurrencesFrom, hitem]
      cases quotedItem none (c :: t) with
      | none => exact (ih _ _ _).trans (ih _ _ _).symm
      | some found =>
        exact congrArg (found.1 :: ·) ((ih _ _ _).trans (ih _ _ _).symm)

lemma quotedTexts_of_none {c : Char} {t : List Char} (h : quotedItem none (c :: t) = none) :
    quotedTexts (c :: t) = quotedTexts t := by
  rw [quotedTexts, occurrences, occurrencesFrom, h]
  exact map_occurrencesFrom_quotedItem _ _ _ _

lemma quotedTexts_other {c : Char} (h : c ≠ '"') (t : List Char) :
    quotedTexts (c :: t) = quotedTexts t := by
  refine quotedTexts_of_none ?_
  unfold quotedItem
  split
  · next heq => exact absurd (List.cons.inj heq).1 h
  · rfl

section Quotes

variable {s : List Char}

lemma quotedTexts_plain (h : '"' ∉ s) : quotedTexts s = [] := by
  induction s with
  | nil => rfl
  | cons c s ih =>
    rw [List.mem_cons, not_or] at h
    rw [quotedTexts_other (Ne.symm h.1), ih h.2]

lemma quotedText?_cons {c : Char} (hquote : c ≠ '"') (hbackslash : c ≠ '\\') (t : List Char) :
    quotedText? (c :: t) = (quotedText? t).map fun (u, rest) => (c :: u, rest) := by
  rw [quotedText?, if_neg hquote, if_neg hbackslash]
  exact fun _ _ h _ => hbackslash h

lemma quotedText?_closed (hquote : '"' ∉ s) (hbackslash : '\\' ∉ s) (t : List Char) :
    quotedText? (s ++ '"' :: t) = some (s, t) := by
  induction s with
  | nil => rfl
  | cons c s ih =>
    rw [List.mem_cons, not_or] at hquote hbackslash
    rw [List.cons_append, quotedText?_cons (Ne.symm hquote.1) (Ne.symm hbackslash.1),
      ih hquote.2 hbackslash.2]
    rfl

lemma quotedText?_open (hquote : '"' ∉ s) (hbackslash : '\\' ∉ s) : quotedText? s = none := by
  induction s with
  | nil => rfl
  | cons c s ih =>
    rw [List.mem_cons, not_or] at hquote hbackslash
    rw [quotedText?_cons (Ne.symm hquote.1) (Ne.symm hbackslash.1), ih hquote.2 hbackslash.2]
    rfl

lemma quotedTexts_quoted (hquote : '"' ∉ s) (hbackslash : '\\' ∉ s) (t : List Char) :
    quotedTexts (quoted s ++ t) = s :: quotedTexts t := by
  have hread : quotedItem none (quoted s ++ t) = some (s, t) := by
    rw [quoted, List.cons_append, List.append_assoc]
    exact quotedText?_closed hquote hbackslash t
  have hdrop : (s ++ '"' :: t).drop ((s ++ '"' :: t).length - t.length) = t := by
    have hlength : (s ++ '"' :: t).length - t.length = (s ++ ['"']).length := by
      simp only [List.length_append, List.length_cons, List.length_nil]
      omega
    have hsplit : s ++ '"' :: t = (s ++ ['"']) ++ t := by simp
    rw [hlength, hsplit, List.drop_left]
  have htext : quoted s ++ t = '"' :: (s ++ '"' :: t) := by simp [quoted]
  rw [htext] at hread ⊢
  rw [quotedTexts, occurrences, occurrencesFrom, hread]
  dsimp only
  rw [List.map_cons, map_occurrencesFrom_quotedItem, hdrop]

lemma quotedTexts_open (hquote : '"' ∉ s) (hbackslash : '\\' ∉ s) :
    quotedTexts ('"' :: s) = [] := by
  have hread : quotedItem none ('"' :: s) = none := quotedText?_open hquote hbackslash
  rw [quotedTexts_of_none hread, quotedTexts_plain hquote]

end Quotes

/-! ### The items -/

section Items

lemma splitAtMark?_append {a : List Char} (h : ']' ∉ a) (t : List Char) :
    splitAtMark? [']'] (a ++ t) = (splitAtMark? [']'] t).map fun (b, rest) => (a ++ b, rest) := by
  induction a with
  | nil => simp
  | cons c a ih =>
    rw [List.mem_cons, not_or] at h
    have hmark : ¬ [']'] <+: c :: (a ++ t) := by
      rw [List.cons_prefix_cons]
      exact fun hc => h.1 hc.1
    rw [List.cons_append, splitAtMark?, afterWord?_eq_none hmark, ih h.2]
    exact Option.map_map _ _ _

lemma splitAtMark?_bracket {a : List Char} (h : ']' ∉ a) (t : List Char) :
    splitAtMark? [']'] (a ++ ']' :: t) = some (a, t) := by
  rw [splitAtMark?_append h]
  simp [splitAtMark?, afterWord?]

lemma exists_cut {s : List Char} (hitem : IsItem s) (h : ']' ∈ s) (t : List Char) :
    ∃ body rest, splitAtMark? [']'] (quoted s ++ t) = some (body, rest) ∧
      quotedTexts body = [] := by
  obtain ⟨a, b, rfl, ha⟩ := List.eq_append_cons_of_mem h
  have hquote := hitem.quote
  have hbackslash := hitem.backslash
  simp only [List.mem_append, List.mem_cons, not_or] at hquote hbackslash
  refine ⟨'"' :: a, b ++ '"' :: t, ?_, quotedTexts_open hquote.1 hbackslash.1⟩
  have htext : quoted (a ++ ']' :: b) ++ t = ('"' :: a) ++ ']' :: (b ++ '"' :: t) := by
    simp [quoted]
  rw [htext]
  exact splitAtMark?_bracket (by simpa using ha) _

/-- **The texts in quotes up to the first closing bracket** are the items before the first one that
has a bracket. -/
lemma exists_body {items : List (List Char)} (hitems : ∀ s ∈ items, IsItem s) (after : List Char) :
    ∃ body rest, splitAtMark? [']'] (itemsText items ++ ']' :: after) = some (body, rest) ∧
      quotedTexts body = openItems items := by
  have hfree {s : List Char} (h : ']' ∉ s) : ']' ∉ quoted s := by simpa [quoted] using h
  induction items with
  | nil => exact ⟨[], after, rfl, rfl⟩
  | cons s items ih =>
    rw [List.forall_mem_cons] at hitems
    obtain ⟨hs, hitems⟩ := hitems
    by_cases hbracket : ']' ∈ s
    · -- whatever follows, the item is not closed
      obtain ⟨t, ht⟩ : ∃ t, itemsText (s :: items) ++ ']' :: after = quoted s ++ t := by
        cases items with
        | nil => exact ⟨_, rfl⟩
        | cons _ _ => exact ⟨_, List.append_assoc _ _ _⟩
      obtain ⟨body, rest, hsplit, hbody⟩ := exists_cut hs hbracket t
      refine ⟨body, rest, ht ▸ hsplit, ?_⟩
      rw [hbody, openItems, List.takeWhile_cons_of_neg (by simpa using hbracket)]
    · have hopen : openItems (s :: items) = s :: openItems items :=
        List.takeWhile_cons_of_pos (by simpa using hbracket)
      rw [hopen]
      cases items with
      | nil =>
        refine ⟨quoted s, after, splitAtMark?_bracket (hfree hbracket) after, ?_⟩
        rw [← List.append_nil (quoted s), quotedTexts_quoted hs.quote hs.backslash]
        rfl
      | cons s' items =>
        obtain ⟨body, rest, hsplit, hbody⟩ := ih hitems
        have hlead : ']' ∉ quoted s ++ [',', ' '] := by
          simpa using hfree hbracket
        have htext : itemsText (s :: s' :: items) ++ ']' :: after =
            (quoted s ++ [',', ' ']) ++ (itemsText (s' :: items) ++ ']' :: after) := by
          simp [itemsText]
        refine ⟨(quoted s ++ [',', ' ']) ++ body, rest, ?_, ?_⟩
        · rw [htext, splitAtMark?_append hlead, hsplit]
          rfl
        · rw [List.append_assoc, quotedTexts_quoted hs.quote hs.backslash,
            List.cons_append, quotedTexts_other (by decide), List.cons_append,
            quotedTexts_other (by decide), List.nil_append, hbody]

lemma unescapeQuotes_of_notMem {s : List Char} (h : '\\' ∉ s) : unescapeQuotes s = s := by
  induction s with
  | nil => rfl
  | cons c s ih =>
    rw [List.mem_cons, not_or] at h
    rw [unescapeQuotes, ih h.2]
    exact fun _ hc _ => h.1 hc.symm

lemma filter_map_items {items : List (List Char)} (hitems : ∀ s ∈ items, IsItem s) :
    (items.map fun s => trim (unescapeQuotes s)).filter (fun s => !s.isEmpty) = items := by
  have hmap : (items.map fun s => trim (unescapeQuotes s)) = items := by
    refine (List.map_congr_left fun s hs => ?_).trans (List.map_id items)
    rw [unescapeQuotes_of_notMem (hitems s hs).backslash, (hitems s hs).trimmed, id]
  rw [hmap, List.filter_eq_self]
  intro s hs
  rw [Bool.not_eq_true', List.isEmpty_eq_false_iff]
  rintro rfl
  exact (hitems [] hs).saying (List.forall_mem_nil _)

lemma isItem_of_mem_openItems {items : List (List Char)} (hitems : ∀ s ∈ items, IsItem s) :
    ∀ s ∈ openItems items, IsItem s :=
  fun s hs => hitems s (List.takeWhile_subset _ hs)

lemma openItems_eq_iff {items : List (List Char)} :
    openItems items = items ↔ ∀ s ∈ items, ']' ∉ s := by
  simp [openItems]

lemma arrayItems_array {before : List Char} {items : List (List Char)} (hlines : IsLines before)
    (hsilent : mentions arrayName before = false) (hitems : ∀ s ∈ items, IsItem s)
    (after : List Char) :
    arrayItems (before ++ (arrayText items ++ after)) = openItems items := by
  obtain ⟨body, rest, hsplit, hbody⟩ := exists_body hitems after
  have htext : arrayText items ++ after =
      arrayLead ++ (itemsText items ++ ']' :: after) := by
    rw [arrayText, List.append_assoc, List.append_assoc, List.singleton_append]
  have hread : (afterArrayStart? (before ++ (arrayText items ++ after))).bind
      (splitAtMark? [']']) = some (body, rest) := by
    rw [htext, afterArrayStart?_append hlines hsilent, afterArrayStart?_lead,
      Option.bind_some, hsplit]
  have hfound : arrayItems (before ++ (arrayText items ++ after)) =
      ((quotedTexts body).map fun s => trim (unescapeQuotes s)).filter fun s => !s.isEmpty := by
    rw [arrayItems, hread, quotedTexts, List.map_map]
    rfl
  rw [hfound, hbody, filter_map_items (isItem_of_mem_openItems hitems)]

end Items

/-- **Arrays are read back up to the first closing bracket.** Behind lines that do not have its
name, of an array of items in quotes the items before the first one with a closing bracket are read,
and if there are any they are the suggestions. So the items all come back if and only if none of
them has a closing bracket; brackets that open, commas, bullets and words of advice do no harm. -/
theorem array_readsBack {before : List Char} {items : List (List Char)} (hlines : IsLines before)
    (hsilent : mentions arrayName before = false) (hne : items ≠ [])
    (hitems : ∀ s ∈ items, IsItem s) (after : List Char) :
    arrayItems (before ++ (arrayText items ++ after)) = openItems items ∧
    (openItems items ≠ [] →
      proseSuggestions (before ++ (arrayText items ++ after)) = openItems items) ∧
    (arrayItems (before ++ (arrayText items ++ after)) = items ↔ ∀ s ∈ items, ']' ∉ s) ∧
    ((∀ s ∈ items, ']' ∉ s) → proseSuggestions (before ++ (arrayText items ++ after)) = items) := by
  have harray := arrayItems_array hlines hsilent hitems after
  have hfirst (hopen : openItems items ≠ []) :
      proseSuggestions (before ++ (arrayText items ++ after)) = openItems items := by
    rw [proseSuggestions, harray, firstNonEmpty_of_ne_nil hopen]
  refine ⟨harray, hfirst, harray ▸ openItems_eq_iff, fun hfree => ?_⟩
  have hopen : openItems items = items := openItems_eq_iff.mpr hfree
  rw [hfirst (by rwa [hopen]), hopen]

/-- Two suggestions that are written with marks of bullets and of arrays. -/
def markedItems : List (List Char) :=
  ["- Use \x7ba\x7d, not [a".toList, "Consider keys; you should add them.".toList]

lemma isItem_of_decide {s : List Char}
    (h : (s.any (!isBlank ·) && trim s == s && !s.contains '"' && !s.contains '\\') = true) :
    IsItem s := by
  simp only [Bool.and_eq_true, List.any_eq_true, Bool.not_eq_true', beq_iff_eq] at h
  obtain ⟨⟨⟨⟨c, hc, hblank⟩, htrim⟩, hquote⟩, hbackslash⟩ := h
  exact ⟨not_blank_of_mem hc hblank, htrim, by simpa using hquote, by simpa using hbackslash⟩

theorem array_readsBack_marked :
    IsLines "# Review\n".toList ∧ mentions arrayName "# Review\n".toList = false ∧
    markedItems ≠ [] ∧
    (∀ s ∈ markedItems, IsItem s) ∧ (∀ s ∈ markedItems, ']' ∉ s) ∧
    proseSuggestions ("# Review\n".toList ++ (arrayText markedItems ++ "\n- Bye".toList)) =
      markedItems := by
  have hlines : IsLines "# Review\n".toList := .inr (by decide)
  have hsilent : mentions arrayName "# Review\n".toList = false := by decide
  have hne : markedItems ≠ [] := List.cons_ne_nil _ _
  have hitems : ∀ s ∈ markedItems, IsItem s := by
    simp only [markedItems, List.forall_mem_cons]
    exact ⟨isItem_of_decide (by decide +kernel), isItem_of_decide (by decide +kernel),
      List.forall_mem_nil _⟩
  have hfree : ∀ s ∈ markedItems, ']' ∉ s := by decide
  exact ⟨hlines, hsilent, hne, hitems, hfree,
    (array_readsBack hlines hsilent hne hitems _).2.2.2 hfree⟩

def bracketItems : List (List Char) :=
  ["Prefer [] to new Array()".toList, "Add keys".toList]

/-- Brackets inside of an item end the array, and the whole line becomes the suggestion. -/
theorem array_cutsBracket :
    (∀ s ∈ bracketItems, IsItem s) ∧ IsLines [] ∧ mentions arrayName [] = false ∧
    proseSuggestions (arrayText bracketItems) = [arrayText bracketItems] := by
  refine ⟨?_, .inl rfl, by decide, by decide +kernel⟩
  simp only [bracketItems, List.forall_mem_cons]
  exact ⟨isItem_of_decide (by decide +kernel), isItem_of_decide (by decide +kernel),
    List.forall_mem_nil _⟩

end CodeHealth.Proofs.QuotedArrays
