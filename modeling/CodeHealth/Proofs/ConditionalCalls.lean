import CodeHealth.Proofs.Completion
import CodeHealth.Proofs.LineHits
import CodeHealth.Proofs.MaskedPlaces
import CodeHealth.Proofs.OpenBraces
import CodeHealth.Proofs.Recognition

/-!
Calls of hooks under a condition, in a text without a tree.

The scan keeps a stack through the lines. By the braces that are open it is known at the start of
each line, so what is told about a line is told by what the text holds before it: the innermost open
brace that is not plain, or a condition in the line itself. Lines that follow have no part in it.
-/

namespace CodeHealth.Proofs.ConditionalCalls

open CodeHealth.Check CodeHealth.Text
open CodeHealth.Proofs.Completion CodeHealth.Proofs.LineHits CodeHealth.Proofs.MaskedPlaces
open CodeHealth.Proofs.OpenBraces CodeHealth.Proofs.Recognition CodeHealth.Proofs.TextLines

/-! ### What a line is -/

/-- A line that starts a function: it holds the word `function` or an arrow. -/
def IsFunction (l : List Char) : Prop := HoldsWord ["function".toList] l ∨ "=>".toList <:+: l

/-- A line that starts a condition or a loop and no function. -/
def IsConditional (l : List Char) : Prop := ¬ IsFunction l ∧ HoldsWord conditionWords l

/-- A line that starts neither. -/
def IsPlain (l : List Char) : Prop := ¬ IsFunction l ∧ ¬ HoldsWord conditionWords l

lemma contains_iff (part text : List Char) : Text.contains part text = true ↔ part <:+: text := by
  induction text with
  | nil => rw [Text.contains, List.isEmpty_iff, List.infix_nil]
  | cons c cs ih =>
    rw [Text.contains, Bool.or_eq_true, List.isPrefixOf_iff_prefix, ih, List.infix_cons_iff]

lemma hasWord_condition (l : List Char) :
    hasWord conditionWords l = true ↔ HoldsWord conditionWords l := hasWord_iff (by decide) l

lemma isFunction_iff (l : List Char) :
    (hasWord ["function".toList] l || Text.contains "=>".toList l) = true ↔ IsFunction l := by
  rw [Bool.or_eq_true, contains_iff, hasWord_iff (by decide)]
  rfl

lemma frameOf_conditional (l : List Char) : frameOf l = .conditional ↔ IsConditional l := by
  rw [IsConditional, ← isFunction_iff, ← hasWord_condition, frameOf]
  split_ifs with hfun hcond
  · exact ⟨nofun, fun h => absurd hfun h.1⟩
  · exact ⟨fun _ => ⟨hfun, hcond⟩, fun _ => rfl⟩
  · exact ⟨nofun, fun h => absurd h.2 hcond⟩

lemma frameOf_plain (l : List Char) : frameOf l = .plain ↔ IsPlain l := by
  rw [IsPlain, ← isFunction_iff, ← hasWord_condition, frameOf]
  split_ifs with hfun hcond
  · exact ⟨nofun, fun h => absurd hfun h.1⟩
  · exact ⟨nofun, fun h => absurd hcond h.2⟩
  · exact ⟨fun _ => ⟨hfun, hcond⟩, fun _ => rfl⟩

/-! ### Braces and lines -/

/-- The line that holds the character at an index of a text. -/
def lineAt (text : List Char) (o : ℕ) : List Char :=
  ((lines text)[(Position.ofIndex text o).line - 1]?).getD []

/-- A brace that was opened in an earlier line is open at a line: no brace in an earlier line closes
it. -/
def OpenAt (text : List Char) (n o : ℕ) : Prop :=
  text[o]? = some '\x7b' ∧ (Position.ofIndex text o).line < n ∧
    ∀ c, (Position.ofIndex text c).line < n → ¬ Closes text c o

/-- The innermost brace that is open at a line and not plain belongs to a condition. -/
def UnderCondition (text : List Char) (n : ℕ) : Prop :=
  ∃ o, OpenAt text n o ∧ IsConditional (lineAt text o) ∧
    ∀ o', OpenAt text n o' → o < o' → IsPlain (lineAt text o')

/-- An index parts the braces of the lines before a line from the others. -/
def CutsAt (text : List Char) (n e : ℕ) : Prop :=
  ∀ k, text[k]? = some '\x7b' ∨ text[k]? = some '\x7d' →
    ((Position.ofIndex text k).line < n ↔ k < e)

section Cuts

variable {text : List Char} {n e : ℕ}

lemma CutsAt.openAt_iff (hcut : CutsAt text n e) {o : ℕ} : OpenAt text n o ↔ IsOpen text e o := by
  have hcloses {c : ℕ} (h : Closes text c o) : (Position.ofIndex text c).line < n ↔ c < e :=
    hcut c (.inr (closes_iff.mp h).1)
  rw [isOpen_iff]
  constructor
  · rintro ⟨hopens, hline, hfree⟩
    exact ⟨(hcut o (.inl hopens)).mp hline, hopens,
      fun c hc h => hfree c ((hcloses h).mpr hc) h⟩
  · rintro ⟨hlt, hopens, hfree⟩
    exact ⟨hopens, (hcut o (.inl hopens)).mpr hlt, fun c hc h => hfree c ((hcloses h).mp hc) h⟩

lemma CutsAt.openBraces_eq (hcut : CutsAt text n e) {e' : ℕ} (hcut' : CutsAt text n e') :
    openBraces text e = openBraces text e' :=
  (pairwise_openBraces text e).eq_of_mem_iff (pairwise_openBraces text e') fun o => by
    rw [mem_openBraces, mem_openBraces, ← hcut.openAt_iff, ← hcut'.openAt_iff]

def labels (text : List Char) (e : ℕ) : List Frame :=
  (openBraces text e).map fun o => frameOf (lineAt text o)

lemma CutsAt.underCondition_iff (hcut : CutsAt text n e) :
    inConditional (labels text e) = true ↔ UnderCondition text n := by
  rw [labels, inConditional_map (pairwise_openBraces text e), UnderCondition]
  simp only [mem_openBraces, ← hcut.openAt_iff, frameOf_conditional, frameOf_plain]

lemma one_le_line (text : List Char) (k : ℕ) : 1 ≤ (Position.ofIndex text k).line :=
  le_line_foldl_advance _ .start

lemma CutsAt.labels_first (hcut : CutsAt text 1 e) : labels text e = [] := by
  have hnil : openBraces text e = [] := by
    refine List.eq_nil_iff_forall_not_mem.mpr fun o ho => ?_
    obtain ⟨-, hline, -⟩ := hcut.openAt_iff.mpr (mem_openBraces.mp ho)
    exact absurd (one_le_line text o) (Nat.not_le.mpr hline)
  rw [labels, hnil, List.map_nil]

variable {lead l tail : List Char}

lemma cutsAt_start (hat : IsLineAt text n lead l tail) : CutsAt text n lead.length :=
  fun _ _ => ⟨hat.lt_of_line_lt, hat.line_lt⟩

/-- A line feed and a carriage return are no braces, so a line may be cut off without its end. -/
lemma cutsAt_end (hmem : (n, l) ∈ countedLines text) (hat : IsLineAt text n lead l tail) :
    CutsAt text (n + 1) (lead.length + l.length) := by
  intro k hk
  constructor
  · intro hline
    obtain ⟨c, hc, hbreak, hreturn⟩ : ∃ c, text[k]? = some c ∧ c ≠ '\n' ∧ c ≠ '\r' := by
      rcases hk with hk | hk
      · exact ⟨_, hk, by decide, by decide⟩
      · exact ⟨_, hk, by decide, by decide⟩
    obtain ⟨m, lead', l', tail', j, hmem', hat', rfl, hj⟩ := exists_line_of_index hc hbreak hreturn
    have hline' : m < n + 1 := by
      rw [hat'.ofIndex hj.le] at hline
      exact hline
    -- the brace stands in this line or in an earlier one
    rcases Nat.eq_or_lt_of_le (Nat.le_of_lt_succ hline') with rfl | hlt
    · obtain rfl := eq_of_mem_countedLines hmem hmem'
      have hlead : lead' = lead := eq_of_after_eq ⟨_, hat'.split.symm⟩ ⟨_, hat.split.symm⟩
        (hat'.place.trans hat.place.symm)
      rw [hlead]
      omega
    · have hbefore : (Position.ofIndex text (lead'.length + j)).line < n := by
        rw [hat'.ofIndex hj.le]
        exact hlt
      have hk := hat.lt_of_line_lt hbefore
      omega
  · intro hlt
    rcases Nat.lt_or_ge k lead.length with hk' | hk'
    · exact Nat.lt_succ_of_lt (hat.line_lt hk')
    · obtain ⟨j, rfl⟩ := Nat.exists_eq_add_of_le hk'
      rw [hat.ofIndex (by omega)]
      exact Nat.lt_succ_self n

lemma lineAt_eq (hmem : (n, l) ∈ countedLines text) (hat : IsLineAt text n lead l tail) {k : ℕ}
    (hk : k < l.length) : lineAt text (lead.length + k) = l := by
  obtain ⟨i, hi, heq⟩ := List.getElem_of_mem hmem
  simp only [countedLines, List.getElem_map, List.getElem_zipIdx, Prod.mk.injEq] at heq
  obtain ⟨rfl, hl⟩ := heq
  rw [lineAt, hat.ofIndex hk.le, Nat.add_sub_cancel_left, ← hl,
    List.getElem?_eq_getElem (by simpa [countedLines] using hi), Option.getD_some]

lemma pushBraces_labels (hmem : (n, l) ∈ countedLines text) (hat : IsLineAt text n lead l tail) :
    pushBraces (frameOf l) (labels text lead.length) l =
      labels text (lead.length + l.length) := by
  refine pushBraces_openBraces ⟨tail, ?_⟩ fun k hk => by rw [lineAt_eq hmem hat hk]
  rw [hat.split, List.drop_left]

end Cuts

/-! ### Calls -/

/-- A hook is called at an index of a line: its name as a whole word, blanks if there are any, and
the bracket. -/
def CallsHook (l : List Char) (i : ℕ) (name : List Char) : Prop :=
  ∃ before blanks left, l = before ++ (name ++ (blanks ++ '(' :: left)) ∧ before.length = i ∧
    isHookName name = true ∧ name.all isWordChar = true ∧ isBlankText blanks = true ∧
    before.getLast?.any isWordChar = false

/-- What stands before a call in its line makes it conditional. -/
def InlineCondition (before : List Char) : Prop :=
  '?' ∈ before ∨ "&&".toList <:+: before ∨ "||".toList <:+: before ∨
    HoldsWord conditionWords before

lemma inlineCondition_iff (before : List Char) :
    inlineCondition before = true ↔ InlineCondition before := by
  simp only [inlineCondition, InlineCondition, Bool.or_eq_true, List.contains_iff_mem,
    contains_iff, hasWord_condition, or_assoc]

lemma isWordChar_of_isCapital {c : Char} (h : isCapital c = true) : isWordChar c = true := by
  have hcapitals : ∀ n ∈ List.range' 65 26, isWordChar (Char.ofNat n) = true := by decide +kernel
  have hmem : c.toNat ∈ List.range' 65 26 := by
    obtain ⟨hlo, hhi⟩ := Bool.and_eq_true_iff.mp h
    have hlo' : 65 ≤ c.toNat := of_decide_eq_true hlo
    have hhi' : c.toNat ≤ 90 := of_decide_eq_true hhi
    rw [List.mem_range'_1]
    omega
  have hc := hcapitals c.toNat hmem
  rwa [Char.ofNat_toNat] at hc

lemma isHookName_iff {cs : List Char} :
    isHookName cs = true ↔ ∃ c tail, cs = 'u' :: 's' :: 'e' :: c :: tail ∧ isCapital c = true := by
  fun_cases isHookName cs with
  | case1 c tail => simp
  | case2 cs hne =>
    refine ⟨nofun, ?_⟩
    rintro ⟨c, tail, rfl, -⟩
    exact absurd rfl (hne c tail)

lemma isHookName_spanWord {cs : List Char} (h : isHookName cs = true) :
    isHookName (spanWord cs).1 = true := by
  obtain ⟨c, tail, rfl, hc⟩ := isHookName_iff.mp h
  refine isHookName_iff.mpr ⟨c, tail.takeWhile isWordChar, ?_, hc⟩
  rw [spanWord, List.span_eq_takeWhile_dropWhile]
  simp only [List.takeWhile_cons, isWordChar_of_isCapital hc, if_true]
  rfl

lemma hookCall_eq_some {before : Option Char} {rest name left : List Char} :
    hookCall before rest = some (name, left) ↔
      before.any isWordChar = false ∧ isHookName name = true ∧ name.all isWordChar = true ∧
        ∃ blanks, isBlankText blanks = true ∧ rest = name ++ (blanks ++ '(' :: left) := by
  have hboundary (hname : isHookName rest = true) :
      atBoundary before rest = !before.any isWordChar := by
    obtain ⟨c, tail, rfl, -⟩ := isHookName_iff.mp hname
    rw [atBoundary, List.head?_cons, Option.any_some]
    cases before.any isWordChar <;> rfl
  constructor
  · intro h
    unfold hookCall at h
    split_ifs at h with hreads
    obtain ⟨hbefore, hname⟩ := Bool.and_eq_true_iff.mp hreads
    rw [hboundary hname, Bool.not_eq_true'] at hbefore
    -- the word is read to its end, and blanks and the bracket follow
    obtain ⟨hsplit, hall, -⟩ := spanWord_parts rest
    have hword := isHookName_spanWord hname
    cases hspan : spanWord rest with
    | mk word behind =>
      rw [hspan] at h hsplit hall hword
      obtain ⟨left', hmark, heq⟩ := Option.map_eq_some_iff.mp h
      obtain ⟨rfl, rfl⟩ := Prod.mk.inj heq
      obtain ⟨blanks, hblanks, rfl⟩ := (afterMark?_eq_some (by decide)).mp hmark
      exact ⟨hbefore, hword, hall, blanks, hblanks, hsplit⟩
  · rintro ⟨hbefore, hname, hall, blanks, hblanks, rfl⟩
    -- the name ends in front of the blanks or of the bracket
    have hstop : (blanks ++ '(' :: left).head?.any isWordChar = false := by
      cases blanks with
      | nil => rfl
      | cons c blanks =>
        exact isWordChar_of_isBlank (List.all_eq_true.mp hblanks c List.mem_cons_self)
    have hstarts : isHookName (name ++ (blanks ++ '(' :: left)) = true := by
      obtain ⟨c, tail, rfl, hc⟩ := isHookName_iff.mp hname
      exact hc
    rw [hookCall, hboundary hstarts, hbefore, hstarts, Bool.not_false, Bool.true_and,
      if_pos rfl, spanWord_append hall hstop]
    exact Option.map_eq_some_iff.mpr ⟨left, (afterMark?_eq_some (by decide)).mpr
      ⟨blanks, hblanks, rfl⟩, rfl⟩

/-- **Each call is read**: an earlier one ends before a later name starts. -/
lemma mem_occurrences_iff {l name : List Char} {i : ℕ} :
    (i, name) ∈ occurrences hookCall l ↔ CallsHook l i name := by
  constructor
  · intro h
    obtain ⟨before, behind, left, rfl, rfl, hread⟩ := exists_of_mem_occurrences h
    obtain ⟨hbefore, hname, hall, blanks, hblanks, rfl⟩ := hookCall_eq_some.mp hread
    exact ⟨before, blanks, left, rfl, rfl, hname, hall, hblanks, hbefore⟩
  · rintro ⟨before, blanks, left, rfl, rfl, hname, hall, hblanks, hbefore⟩
    obtain ⟨c, tail, hword, -⟩ := isHookName_iff.mp hname
    have hne : name ++ (blanks ++ '(' :: left) ≠ [] := by simp
    refine Recognition.mem_occurrences ?_ hne
      (hookCall_eq_some.mpr ⟨hbefore, hname, hall, blanks, hblanks, rfl⟩)
    intro before' behind' name' left' heq hearlier hread
    obtain ⟨-, -, hall', blanks', hblanks', rfl⟩ := hookCall_eq_some.mp hread
    rw [hword] at heq ⊢
    exact length_le_of_whole_word heq.symm hall' hblanks' (by decide) hearlier hbefore

/-! ### The scan -/

/-- The hits of a line, given the stack before it. -/
def callsIn (stack : List Frame) (n : ℕ) (l : List Char) : List Hit :=
  (occurrences hookCall l).filterMap fun (i, name) =>
    if inConditional stack || inlineCondition (l.take i) then
      some (conditionalHit (String.ofList name) ⟨n, i + 1⟩)
    else none

/-- The hits of lines, given the stack before them. -/
def callsInLines : List Frame → List (ℕ × List Char) → List Hit
  | _, [] => []
  | stack, (n, l) :: ls =>
    callsIn stack n l ++ callsInLines (pushBraces (frameOf l) stack l) ls

def stackAfter (stack : List Frame) (ls : List (ℕ × List Char)) : List Frame :=
  ls.foldl (fun st numbered => pushBraces (frameOf numbered.2) st numbered.2) stack

lemma stackAfter_concat (stack : List Frame) (ls : List (ℕ × List Char)) (n : ℕ)
    (l : List Char) :
    stackAfter stack (ls ++ [(n, l)]) = pushBraces (frameOf l) (stackAfter stack ls) l := by
  rw [stackAfter, List.foldl_append]
  rfl

section Scan

variable {stack : List Frame} {n : ℕ} {l : List Char} {h : Hit}

lemma conditionalHooksInLine_eq (stack : List Frame) (n : ℕ) (l : List Char) :
    conditionalHooksInLine stack (n % Word.bound32) l =
      .ok ((callsIn stack n l).map Hit.narrow) := by
  rw [callsIn, List.map_filterMap]
  refine filterMapM_eq fun (i, name) hmem => ?_
  obtain ⟨before, blanks, left, rfl, rfl, -⟩ := mem_occurrences_iff.mp hmem
  change (sliceTo (offsetAt _ before.length) _ >>= _) = _
  rw [sliceTo_offsetAt, columnAt_offsetAt (by simp), List.take_left]
  change (if inConditional stack || inlineCondition before then _ else _) = Except.ok
    (Option.map Hit.narrow
      (if inConditional stack || inlineCondition (List.take before.length _) then _ else _))
  rw [List.take_left]
  split <;> rfl

lemma conditionalHooksInLines_eq (stack : List Frame) (ls : List (ℕ × List Char)) :
    conditionalHooksInLines stack (ls.map fun (n, l) => (n % Word.bound32, l)) =
      .ok ((callsInLines stack ls).map Hit.narrow) := by
  induction ls generalizing stack with
  | nil => rfl
  | cons numbered ls ih =>
    rw [List.map_cons, conditionalHooksInLines, conditionalHooksInLine_eq, ih, callsInLines,
      List.map_append]
    rfl

lemma mem_callsIn :
    h ∈ callsIn stack n l ↔ ∃ i name, CallsHook l i name ∧
      (inConditional stack = true ∨ InlineCondition (l.take i)) ∧
      h = conditionalHit (String.ofList name) ⟨n, i + 1⟩ := by
  simp only [callsIn, List.mem_filterMap, Prod.exists, mem_occurrences_iff, Bool.or_eq_true,
    inlineCondition_iff, Option.ite_none_right_eq_some, Option.some.injEq, @eq_comm _ h]

lemma line_eq_of_mem_callsIn (hh : h ∈ callsIn stack n l) : h.line = n := by
  obtain ⟨i, name, -, -, rfl⟩ := mem_callsIn.mp hh
  rfl

lemma pairwise_callsIn (stack : List Frame) (n : ℕ) (l : List Char) :
    (callsIn stack n l).Pairwise Before := by
  refine List.Pairwise.filterMap _ ?_ (pairwise_occurrences l)
  rintro ⟨i, name⟩ ⟨j, name'⟩ hij h hh h' hh'
  obtain ⟨-, heq⟩ := Option.ite_none_right_eq_some.mp hh
  obtain ⟨-, heq'⟩ := Option.ite_none_right_eq_some.mp hh'
  cases heq
  cases heq'
  exact .inr ⟨rfl, Nat.succ_lt_succ hij⟩

lemma callsInLines_append (stack : List Frame) (ls ms : List (ℕ × List Char)) :
    callsInLines stack (ls ++ ms) =
      callsInLines stack ls ++ callsInLines (stackAfter stack ls) ms := by
  induction ls generalizing stack with
  | nil => rfl
  | cons numbered ls ih =>
    rw [List.cons_append, callsInLines, callsInLines, ih, List.append_assoc]
    rfl

lemma mem_callsInLines {ls : List (ℕ × List Char)} :
    h ∈ callsInLines stack ls ↔
      ∃ before n l after, ls = before ++ (n, l) :: after ∧
        h ∈ callsIn (stackAfter stack before) n l := by
  constructor
  · intro hh
    induction ls generalizing stack with
    | nil => cases hh
    | cons numbered ls ih =>
      obtain ⟨n, l⟩ := numbered
      rcases List.mem_append.mp hh with hh | hh
      · exact ⟨[], n, l, ls, rfl, hh⟩
      · obtain ⟨before, m, l', after, rfl, hmore⟩ := ih hh
        exact ⟨(n, l) :: before, m, l', after, rfl, hmore⟩
  · rintro ⟨before, n, l, after, rfl, hh⟩
    rw [callsInLines_append, callsInLines]
    exact List.mem_append_right _ (List.mem_append_left _ hh)

lemma pairwise_callsInLines {ls : List (ℕ × List Char)}
    (hls : ls.Pairwise fun a b => a.1 < b.1) (stack : List Frame) :
    (callsInLines stack ls).Pairwise Before := by
  induction ls generalizing stack with
  | nil => exact .nil
  | cons numbered ls ih =>
    obtain ⟨n, l⟩ := numbered
    obtain ⟨hfirst, hls⟩ := List.pairwise_cons.mp hls
    refine List.pairwise_append.mpr ⟨pairwise_callsIn _ n l, ih hls _, fun h hh h' hh' => ?_⟩
    obtain ⟨before, m, l', after, rfl, hmore⟩ := mem_callsInLines.mp hh'
    left
    rw [Hit.place, Hit.place, line_eq_of_mem_callsIn hh, line_eq_of_mem_callsIn hmore]
    exact hfirst (m, l') (by simp)

end Scan

/-! ### Texts -/

def callsInText (text : List Char) : List Hit := callsInLines [] (countedLines text)

section Texts

variable {text : List Char}

/-- **The stack at a line holds the braces that are open there**, each for what its line is. -/
lemma stackAfter_eq {before after : List (ℕ × List Char)}
    (hsplit : countedLines text = before ++ after) {e : ℕ}
    (hcut : CutsAt text (before.length + 1) e) : stackAfter [] before = labels text e := by
  induction before using List.reverseRecOn generalizing after e with
  | nil => exact hcut.labels_first.symm
  | append_singleton before numbered ih =>
    obtain ⟨n, l⟩ := numbered
    rw [List.append_assoc, List.singleton_append] at hsplit
    have hmem : (n, l) ∈ countedLines text := by simp [hsplit]
    obtain ⟨lead, tail, hat⟩ := exists_isLineAt hmem
    obtain rfl := number_eq_of_split hsplit
    have hstack := ih hsplit (cutsAt_start hat)
    rw [List.length_append, List.length_singleton] at hcut
    rw [stackAfter_concat, hstack, pushBraces_labels hmem hat, labels, labels,
      (cutsAt_end hmem hat).openBraces_eq hcut]

/-- **Told are the calls under a condition.** -/
lemma mem_callsInText {h : Hit} :
    h ∈ callsInText text ↔ ∃ n l i name, (n, l) ∈ countedLines text ∧ CallsHook l i name ∧
      (UnderCondition text n ∨ InlineCondition (l.take i)) ∧
      h = conditionalHit (String.ofList name) ⟨n, i + 1⟩ := by
  have hline {before after : List (ℕ × List Char)} {n : ℕ} {l : List Char}
      (hsplit : countedLines text = before ++ (n, l) :: after) :
      inConditional (stackAfter [] before) = true ↔ UnderCondition text n := by
    have hmem : (n, l) ∈ countedLines text := by simp [hsplit]
    obtain ⟨lead, tail, hat⟩ := exists_isLineAt hmem
    obtain rfl := number_eq_of_split hsplit
    rw [stackAfter_eq hsplit (cutsAt_start hat), (cutsAt_start hat).underCondition_iff]
  rw [callsInText, mem_callsInLines]
  constructor
  · rintro ⟨before, n, l, after, hsplit, hh⟩
    obtain ⟨i, name, hcall, hcond, rfl⟩ := mem_callsIn.mp hh
    rw [hline hsplit] at hcond
    exact ⟨n, l, i, name, by simp [hsplit], hcall, hcond, rfl⟩
  · rintro ⟨n, l, i, name, hmem, hcall, hcond, rfl⟩
    obtain ⟨before, after, hsplit⟩ := List.append_of_mem hmem
    rw [← hline hsplit] at hcond
    exact ⟨before, n, l, after, hsplit, mem_callsIn.mpr ⟨i, name, hcall, hcond, rfl⟩⟩

lemma pairwise_callsInText (text : List Char) : (callsInText text).Pairwise Before :=
  pairwise_callsInLines (pairwise_countedLines text) []

lemma line_le_of_mem_callsInText {h : Hit} (hh : h ∈ callsInText text) :
    h.line ≤ (lines text).length := by
  obtain ⟨n, l, i, name, hmem, -, -, rfl⟩ := mem_callsInText.mp hh
  exact le_length_of_mem_countedLines hmem

lemma map_narrow_callsInText (hfit : PlacesFit text) :
    (callsInText text).map Hit.narrow = callsInText text := by
  refine map_narrow_of_fits fun h hh => ?_
  obtain ⟨n, l, i, name, hmem, ⟨before, blanks, left, hl, rfl, -⟩, -, rfl⟩ := mem_callsInText.mp hh
  obtain ⟨lead, tail, hat⟩ := exists_isLineAt hmem
  exact hfit.fits hat (by simp [hl])

lemma check_eq (src : Source) (htree : src.tree = none) :
    conditionalHook.check src = .hits ((callsInText src.masked).map Hit.narrow) := by
  have hlines : conditionalHooksInText src.masked =
      .ok ((callsInText src.masked).map Hit.narrow) := by
    rw [conditionalHooksInText, numberedLines_eq, conditionalHooksInLines_eq, callsInText]
  simp only [conditionalHook, htree, hlines]
  rfl

end Texts

/-! ### Lines that are added -/

/-- A text that is added to another starts a line. -/
def StartsLine (text more : List Char) : Prop :=
  text = [] ∨ text.getLast? = some '\n' ∨ more.head? = some '\n'

def numbered (k : ℕ) (ls : List (List Char)) : List (ℕ × List Char) :=
  (ls.zipIdx k).map fun (line, n) => (n, line)

lemma callsHook_append {l ends name : List Char} {i : ℕ} (hends : ∀ c ∈ ends, c = '\r') :
    CallsHook (l ++ ends) i name ↔ CallsHook l i name := by
  constructor
  · rintro ⟨before, blanks, left, heq, hi, hcall⟩
    have hsplit : l ++ ends = (before ++ name ++ blanks ++ ['(']) ++ left := by simp [heq]
    rcases List.append_eq_append_iff.mp hsplit with ⟨more, hmore, hrest⟩ | ⟨left', hleft, -⟩
    · rcases List.eq_nil_or_concat more with rfl | ⟨front, c, rfl⟩
      · exact ⟨before, blanks, [], by simpa using hmore.symm, hi, hcall⟩
      · -- the bracket would be a carriage return
        have hlast : c = '(' := by
          have := congrArg List.getLast? hmore
          simpa [← List.append_assoc] using this.symm
        have hc := hends c (by simp [hrest])
        rw [hlast] at hc
        exact absurd hc (by decide)
    · exact ⟨before, blanks, left', by simpa using hleft, hi, hcall⟩
  · rintro ⟨before, blanks, left, rfl, hi, hcall⟩
    exact ⟨before, blanks, left ++ ends, by simp, hi, hcall⟩

lemma callsIn_append {l ends : List Char} (hends : ∀ c ∈ ends, c = '\r') (stack : List Frame)
    (n : ℕ) : callsIn stack n (l ++ ends) = callsIn stack n l := by
  refine (pairwise_callsIn stack n _).eq_of_mem_iff (pairwise_callsIn stack n l) fun h => ?_
  rw [mem_callsIn, mem_callsIn]
  refine exists_congr fun i => exists_congr fun name => ?_
  rw [callsHook_append hends]
  refine and_congr_right fun hcall => ?_
  have htake : (l ++ ends).take i = l.take i := by
    obtain ⟨before, blanks, left, rfl, rfl, -⟩ := hcall
    exact List.take_append_of_le_length (by simp)
  rw [htake]

lemma callsInLines_pieces (stack : List Frame) (k : ℕ) (ps : List (List Char)) :
    callsInLines stack (numbered k (ps.map dropReturn)) =
      callsInLines stack (numbered k (linesOfPieces ps)) := by
  induction ps generalizing stack k with
  | nil => rfl
  | cons p ps ih =>
    cases ps with
    | nil =>
      rw [linesOfPieces]
      split_ifs with hp
      · rw [List.isEmpty_iff.mp hp]
        rfl
      · obtain ⟨ends, hsplit, hends⟩ := exists_dropReturn p
        have hline := callsIn_append hends stack k (l := dropReturn p)
        rw [← hsplit] at hline
        exact congrArg (· ++ []) hline.symm
    | cons q ps =>
      rw [linesOfPieces_cons (List.cons_ne_nil q ps)]
      exact congrArg (callsIn stack k (dropReturn p) ++ ·) (ih _ _)

section Added

variable {text more : List Char}

lemma exists_lines_append (hmore : StartsLine text more) :
    ∃ ls ms, lines (text ++ more) = ls ++ ms ∧ callsInLines [] (numbered 1 ls) = callsInText text ∧
      (lines text).length ≤ ls.length := by
  rcases hmore with rfl | hlast | hhead
  · exact ⟨[], lines more, rfl, rfl, Nat.zero_le _⟩
  · obtain ⟨front, rfl⟩ := List.getLast?_eq_some_iff.mp hlast
    have hlines (t : List Char) := lines_append_lineFeed front t
    refine ⟨lines (front ++ ['\n']), lines more, ?_, rfl, le_rfl⟩
    rw [List.append_assoc, List.singleton_append, hlines, hlines]
    exact congrArg (· ++ lines more) (List.append_nil _).symm
  · obtain ⟨rest, rfl⟩ := List.head?_eq_some_iff.mp hhead
    refine ⟨(pieces text).map dropReturn, lines rest, lines_append_lineFeed text rest,
      callsInLines_pieces [] 1 (pieces text), ?_⟩
    rw [List.length_map]
    exact length_linesOfPieces_le _

/-- **What is told about a text stays told**, and all that comes to it is told in the lines that
were added. -/
lemma exists_callsInText_append (hmore : StartsLine text more) :
    ∃ later, callsInText (text ++ more) = callsInText text ++ later ∧
      ∀ h ∈ later, (lines text).length < h.line := by
  obtain ⟨ls, ms, hlines, hcalls, hlength⟩ := exists_lines_append hmore
  have hnumbered : countedLines (text ++ more) =
      numbered 1 ls ++ numbered (1 + ls.length) ms := by
    rw [countedLines, hlines, List.zipIdx_append, List.map_append]
    rfl
  refine ⟨callsInLines (stackAfter [] (numbered 1 ls)) (numbered (1 + ls.length) ms), ?_,
    fun h hh => ?_⟩
  · rw [callsInText, hnumbered, callsInLines_append, hcalls]
  · obtain ⟨before, n, l, after, hsplit, hh⟩ := mem_callsInLines.mp hh
    have hmem : (n, l) ∈ numbered (1 + ls.length) ms := by simp [hsplit]
    obtain ⟨⟨l', m⟩, hzip, heq⟩ := List.mem_map.mp hmem
    obtain ⟨rfl, rfl⟩ := Prod.mk.inj heq
    have hle := List.le_snd_of_mem_zipIdx hzip
    rw [line_eq_of_mem_callsIn hh]
    omega

lemma exists_mask_append (hmore : StartsLine text more) :
    ∃ more', mask (text ++ more) = mask text ++ more' ∧ StartsLine (mask text) more' := by
  rcases hmore with rfl | hlast | hhead
  · exact ⟨mask more, rfl, .inl rfl⟩
  · obtain ⟨front, rfl⟩ := List.getLast?_eq_some_iff.mp hlast
    obtain ⟨r, hr⟩ := exists_maskFrom_append .code front
    have hfront : mask (front ++ ['\n']) = mask front ++ ['\n'] := hr []
    refine ⟨maskFrom r more, ?_, .inr (.inl ?_)⟩
    · rw [hfront, List.append_assoc, List.singleton_append, List.append_assoc,
        List.singleton_append]
      exact hr more
    · rw [hfront, List.getLast?_concat]
  · obtain ⟨rest, rfl⟩ := List.head?_eq_some_iff.mp hhead
    obtain ⟨r, hr⟩ := exists_maskFrom_append .code text
    exact ⟨'\n' :: maskFrom r rest, hr rest, .inr (.inr rfl)⟩

end Added

/-- **Conditional calls are told by the blocks of the text.** Told are the calls of hooks in lines at
which the innermost open brace that is not plain belongs to a condition, and those behind a condition
in their own line, each once and in order. So lines that are added to a file change nothing of what
is told about the lines before them. Of each place is told what fits 32 bits, and that is all of it if
the places of the text fit. -/
theorem check_hookCalls (src : Source) (htree : src.tree = none) :
    ∃ told, conditionalHook.check src = .hits (told.map Hit.narrow) ∧ told.Pairwise Before ∧
      (PlacesFit src.masked → conditionalHook.check src = .hits told) ∧
      (∀ h, h ∈ told ↔ ∃ n l i name, (n, l) ∈ countedLines src.masked ∧ CallsHook l i name ∧
        (UnderCondition src.masked n ∨ InlineCondition (l.take i)) ∧
        h = conditionalHit (String.ofList name) ⟨n, i + 1⟩) ∧
      ∀ more, src.masked = mask src.content → StartsLine src.content more →
        ∃ later, conditionalHook.check
            { src with content := src.content ++ more, masked := mask (src.content ++ more) } =
              .hits ((told ++ later).map Hit.narrow) ∧
          (∀ h ∈ told, h.line ≤ (lines src.content).length) ∧
          ∀ h ∈ later, (lines src.content).length < h.line := by
  refine ⟨callsInText src.masked, check_eq src htree, pairwise_callsInText _,
    fun hfit => by rw [check_eq src htree, map_narrow_callsInText hfit],
    fun h => mem_callsInText, fun more hmask hmore => ?_⟩
  obtain ⟨more', hmore', hstarts⟩ := exists_mask_append hmore
  obtain ⟨later, hlater, hlines⟩ := exists_callsInText_append hstarts
  rw [length_lines_mask] at hlines
  refine ⟨later, ?_, fun h hh => ?_, hlines⟩
  · rw [check_eq _ (by exact htree), hmore', hlater, hmask]
  · rw [← length_lines_mask, ← hmask]
    exact line_le_of_mem_callsInText hh

/-- A hook in a block of a condition, in a file that is not finished. -/
def openBlock : Source where
  path := ⟨"App.tsx"⟩
  content := "function App() \x7b\n  if (a) \x7b\n    useState(0);\n  \x7d".toList
  masked := mask "function App() \x7b\n  if (a) \x7b\n    useState(0);\n  \x7d".toList
  tree := none
  options := .empty

/-- The end of the file, with a hook behind a condition of its own. -/
def blockEnd : List Char := "\n  useRef(0); a && useMemo(f);\n\x7d\n".toList

theorem check_hookCalls_openBlock :
    openBlock.tree = none ∧ PlacesFit openBlock.masked ∧
    openBlock.masked = mask openBlock.content ∧ StartsLine openBlock.content blockEnd ∧
    conditionalHook.check openBlock = .hits [conditionalHit "useState" ⟨3, 5⟩] ∧
    ∃ later, conditionalHook.check { openBlock with
        content := openBlock.content ++ blockEnd, masked := mask (openBlock.content ++ blockEnd) } =
          .hits ((conditionalHit "useState" ⟨3, 5⟩ :: later).map Hit.narrow) ∧
      ∀ h ∈ later, 4 < h.line := by
  have hfit : PlacesFit openBlock.masked := by decide +kernel
  have hstarts : StartsLine openBlock.content blockEnd := .inr (.inr rfl)
  have htold : conditionalHook.check openBlock = .hits [conditionalHit "useState" ⟨3, 5⟩] := by
    decide +kernel
  have hlines : (lines openBlock.content).length = 4 := by decide +kernel
  obtain ⟨told, -, -, hcheck, -, hadded⟩ := check_hookCalls openBlock rfl
  obtain ⟨later, hmore, -, hlater⟩ := hadded blockEnd rfl hstarts
  obtain rfl : told = [conditionalHit "useState" ⟨3, 5⟩] :=
    Outcome.hits.inj ((hcheck hfit).symm.trans htold)
  rw [hlines] at hlater
  exact ⟨rfl, hfit, rfl, hstarts, htold, later, hmore, hlater⟩

end CodeHealth.Proofs.ConditionalCalls
