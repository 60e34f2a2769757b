import CodeHealth.Proofs.SteadyCheckers

/-!
Tags that calls of `map` give.

A call gives the first tag that its bracket holds. Calls that nest or never close may give one tag
several times. The checker keeps the offsets of the tags it has looked at, and different tags stand at
different offsets and places: so each tag is told once, and no call takes away what another one
gives.
-/

namespace CodeHealth.Proofs.NestedMaps

open CodeHealth.Check CodeHealth.Text
open CodeHealth.Proofs.BracketCounts CodeHealth.Proofs.ByteScans CodeHealth.Proofs.Completion
open CodeHealth.Proofs.LineHits CodeHealth.Proofs.LinePlaces CodeHealth.Proofs.MaskedPlaces
open CodeHealth.Proofs.Recognition CodeHealth.Proofs.SteadyCheckers CodeHealth.Proofs.TextLines

variable {text : List Char}

/-! ### Calls -/

/-- A call of `map`: the name behind a point, blanks if there are any, and the bracket. -/
structure Call (text : List Char) where
  before : List Char
  blanks : List Char
  /-- What follows the bracket. -/
  left : List Char
  spells : text = before ++ (".map".toList ++ (blanks ++ '(' :: left))
  blank : isBlankText blanks = true

/-- What stands before the bracket of a call. -/
def Call.lead (call : Call text) : List Char := call.before ++ (".map".toList ++ call.blanks)

lemma Call.eq_lead (call : Call text) : text = call.lead ++ '(' :: call.left := by
  rw [Call.lead, List.append_assoc, List.append_assoc, ← call.spells]

lemma mapCall_eq_some {before : Option Char} {rest left left' : List Char} :
    mapCall before rest = some (left, left') ↔ left' = left ∧
      ∃ blanks, isBlankText blanks = true ∧ rest = ".map".toList ++ (blanks ++ '(' :: left) := by
  rw [mapCall, Option.map_eq_some_iff]
  constructor
  · rintro ⟨l, hcall, heq⟩
    cases heq
    exact ⟨rfl, (afterWordAndMark_eq_some (by decide)).mp hcall⟩
  · rintro ⟨rfl, hcall⟩
    exact ⟨left', (afterWordAndMark_eq_some (by decide)).mpr hcall, rfl⟩

lemma Call.reading (call : Call text) :
    mapCall call.before.getLast? (".map".toList ++ (call.blanks ++ '(' :: call.left)) =
      some (call.left, call.left) :=
  mapCall_eq_some.mpr ⟨rfl, call.blanks, call.blank, rfl⟩

/-- What an earlier reading took ends before the point of a call: it starts with the only point in
it. -/
lemma Call.endsBefore (call : Call text) : EndsBefore mapCall text call.before := by
  intro before behind left left' htext hearlier hread
  obtain ⟨rfl, blanks, hblanks, rfl⟩ := mapCall_eq_some.mp hread
  obtain ⟨tail, htail⟩ :
      ∃ tail, '.' :: tail = ".map".toList ++ (call.blanks ++ '(' :: call.left) := ⟨_, rfl⟩
  have hspells := call.spells
  rw [← htail] at hspells
  -- a call has no point but its first character, so it does not reach as far as this one
  have hpoint : '.' ∉ "map".toList ++ blanks ++ ['('] := by
    have hblank : '.' ∉ blanks := fun hmem =>
      absurd (List.all_eq_true.mp hblanks '.' hmem) (by decide)
    simp [hblank]
  have hbehind : '.' :: tail <:+ "map".toList ++ blanks ++ ['('] ++ left' := by
    rcases List.append_eq_append_iff.mp (htext.symm.trans hspells) with
      ⟨between, hbetween, hrest⟩ | ⟨between, hbetween, -⟩
    · cases between with
      | nil =>
        rw [hbetween, List.append_nil] at hearlier
        exact absurd hearlier (lt_irrefl _)
      | cons c between =>
        have hmap : "map".toList ++ (blanks ++ '(' :: left') = between ++ '.' :: tail :=
          (List.cons.inj hrest).2
        exact ⟨between, by rw [← hmap]; simp⟩
    · rw [hbetween, List.length_append] at hearlier
      omega
  have hlength := (suffix_of_notMem hpoint hbehind).length_le
  have htotal := congrArg List.length hspells
  rw [List.length_append] at htotal
  omega

lemma mem_calls {left : List Char} :
    left ∈ (occurrences mapCall text).map (·.2) ↔ ∃ call : Call text, call.left = left := by
  rw [List.mem_map]
  constructor
  · rintro ⟨⟨i, l⟩, hmem, rfl⟩
    obtain ⟨before, behind, left', rfl, -, hread⟩ := exists_of_mem_occurrences hmem
    obtain ⟨-, blanks, hblanks, rfl⟩ := mapCall_eq_some.mp hread
    exact ⟨⟨before, blanks, l, rfl, hblanks⟩, rfl⟩
  · rintro ⟨call, rfl⟩
    have hmem := mem_occurrences (call.spells ▸ call.endsBefore) (by simp) call.reading
    rw [← call.spells] at hmem
    exact ⟨_, hmem, rfl⟩

/-! ### Tags -/

/-- A tag starts at an index: a `<` with a letter or a `>` behind it. -/
def TagAt (text : List Char) (i : ℕ) : Prop :=
  text[i]? = some '<' ∧ text[i + 1]?.any (fun c => isAsciiLetter c || c == '>') = true

def FirstTag (text : List Char) (i : ℕ) : Prop := TagAt text i ∧ ∀ k < i, ¬ TagAt text k

lemma startsTag_iff {cs : List Char} : startsTag cs = true ↔ TagAt cs 0 := by
  unfold startsTag
  split
  · simp [TagAt]
  · rename_i hother
    refine ⟨nofun, fun ⟨hangle, hletter⟩ => ?_⟩
    obtain ⟨c, hc, -⟩ := (Option.any_eq_true _ _).mp hletter
    match cs, hangle, hc with
    | _ :: _ :: cs, rfl, rfl => exact absurd rfl (hother _ cs)

lemma firstTag?_eq_some {cs : List Char} {i : ℕ} : firstTag? cs = some i ↔ FirstTag cs i := by
  induction cs generalizing i with
  | nil => exact ⟨nofun, fun h => by cases h.1.1⟩
  | cons c cs ih =>
    rw [firstTag?]
    by_cases hstart : startsTag (c :: cs) = true
    · rw [if_pos hstart]
      constructor
      · rintro ⟨⟩
        exact ⟨startsTag_iff.mp hstart, nofun⟩
      · rintro ⟨-, hfirst⟩
        cases i with
        | zero => rfl
        | succ i => exact absurd (startsTag_iff.mp hstart) (hfirst 0 (Nat.succ_pos i))
    · rw [if_neg hstart, Option.map_eq_some_iff]
      constructor
      · rintro ⟨j, hj, rfl⟩
        obtain ⟨hat, hfirst⟩ := ih.mp hj
        refine ⟨hat, fun k hk => ?_⟩
        cases k with
        | zero => exact fun hzero => hstart (startsTag_iff.mpr hzero)
        | succ k => exact hfirst k (Nat.lt_of_succ_lt_succ hk)
      · rintro ⟨hat, hfirst⟩
        cases i with
        | zero => exact absurd (startsTag_iff.mpr hat) hstart
        | succ i =>
          exact ⟨i, ih.mpr ⟨hat, fun k hk => hfirst (k + 1) (Nat.succ_lt_succ hk)⟩, rfl⟩

/-- The tag at an index, as the checker keeps it. -/
def givenTag (text : List Char) (i : ℕ) : GivenTag := ⟨offsetAt text i, text[i + 1]? == some '>'⟩

lemma tagOfCall?_eq (lead left : List Char) : tagOfCall? (lead ++ '(' :: left) left =
    .ok ((firstTag? ('(' :: held '(' ')' left)).map fun i =>
      ⟨byteLength lead + offsetAt ('(' :: held '(' ')' left) i,
        (('(' :: held '(' ')' left).drop (i + 1)).head? == some '>'⟩) := by
  obtain ⟨lead', heq, hopening⟩ := exists_opening (List.suffix_append lead ('(' :: left))
  obtain rfl : lead = lead' := List.append_cancel_right heq
  have hstop : ((closeWithin '(' ')' 1 left).map
      fun k => byteLength lead + 1 + offsetAt left k).getD (byteLength (lead ++ '(' :: left)) =
      byteLength lead + byteLength ('(' :: held '(' ')' left) := by
    rw [held]
    cases closeWithin '(' ')' 1 left with
    | none =>
      rw [Option.map_none, Option.getD_none, Option.getD_none, List.take_length, byteLength_append]
    | some k =>
      rw [Option.map_some, Option.getD_some, Option.getD_some, byteLength_cons, Nat.add_assoc]
      rfl
  have hslice : slice (byteLength lead) (byteLength lead + byteLength ('(' :: held '(' ')' left))
      (lead ++ '(' :: left) = .ok ('(' :: held '(' ')' left) := by
    have hcut := slice_append lead ('(' :: held '(' ')' left)
      (left.drop ((closeWithin '(' ')' 1 left).getD left.length))
    rwa [List.cons_append, held, List.take_append_drop] at hcut
  rw [tagOfCall?, hopening]
  change (closeOf _ _ >>= _) = _
  rw [closeOf_opener rfl]
  dsimp only [bind, Except.bind]
  rw [hstop, hslice]
  rfl

/-- The index of the tag that a call gives, which is given by the text behind its bracket. -/
def givenBy (text left : List Char) : Option ℕ :=
  (firstTag? (held '(' ')' left)).map (text.length - left.length + ·)

lemma givenBy_lead {lead left : List Char} {i : ℕ} :
    givenBy (lead ++ '(' :: left) left = some i ↔
      ∃ j, FirstTag (held '(' ')' left) j ∧ i = lead.length + 1 + j := by
  have hlength : (lead ++ '(' :: left).length - left.length = lead.length + 1 := by
    rw [List.length_append, List.length_cons]
    omega
  rw [givenBy, hlength, Option.map_eq_some_iff]
  exact exists_congr fun j => and_congr firstTag?_eq_some eq_comm

lemma held_prefix_left (left : List Char) : held '(' ')' left <+: left := List.take_prefix _ _

lemma givenTag_lead {lead left : List Char} {j : ℕ} (hj : FirstTag (held '(' ')' left) j) :
    givenTag (lead ++ '(' :: left) (lead.length + 1 + j) =
      ⟨byteLength lead + offsetAt ('(' :: held '(' ')' left) (j + 1),
        (('(' :: held '(' ')' left).drop (j + 1 + 1)).head? == some '>'⟩ := by
  obtain ⟨behind, hbehind⟩ := held_prefix_left left
  obtain ⟨c, hc, -⟩ := (Option.any_eq_true _ _).mp hj.1.2
  obtain ⟨hlt, -⟩ := List.getElem?_eq_some_iff.mp hc
  have htake : (lead ++ '(' :: left).take (lead.length + 1 + j) =
      lead ++ ('(' :: held '(' ')' left).take (j + 1) := by
    have hregion : left.take j = (held '(' ')' left).take j := by
      have hle : j ≤ (held '(' ')' left).length := by omega
      rw [← List.take_append_of_le_length hle, hbehind]
    rw [Nat.add_assoc, Nat.add_comm 1, List.take_length_add_append, List.take_succ_cons,
      List.take_succ_cons, hregion]
  have hnext : (lead ++ '(' :: left)[lead.length + 1 + j + 1]? = (held '(' ')' left)[j + 1]? := by
    rw [List.getElem?_append_right (by omega), ← List.getElem?_append_left hlt, hbehind]
    have hindex : lead.length + 1 + j + 1 - lead.length = j + 1 + 1 := by omega
    rw [hindex, List.getElem?_cons_succ]
  rw [givenTag, offsetAt, htake, byteLength_append, hnext, List.head?_drop,
    List.getElem?_cons_succ]
  rfl

lemma tagOfCall?_givenBy {left : List Char} (h : '(' :: left <:+ text) :
    tagOfCall? text left = .ok ((givenBy text left).map (givenTag text)) := by
  obtain ⟨lead, rfl⟩ := h
  have hround : firstTag? ('(' :: held '(' ')' left) =
      (firstTag? (held '(' ')' left)).map (· + 1) := rfl
  rw [tagOfCall?_eq, hround]
  cases hfirst : firstTag? (held '(' ')' left) with
  | none => rw [givenBy, hfirst]; rfl
  | some j =>
    have hj := firstTag?_eq_some.mp hfirst
    rw [givenBy_lead.mpr ⟨j, hj, rfl⟩, Option.map_some, Option.map_some, Option.map_some,
      givenTag_lead hj]

lemma lt_of_givenBy {left : List Char} (h : '(' :: left <:+ text) {i : ℕ}
    (hi : givenBy text left = some i) : i < text.length := by
  obtain ⟨lead, rfl⟩ := h
  obtain ⟨j, hj, rfl⟩ := givenBy_lead.mp hi
  obtain ⟨hlt, -⟩ := List.getElem?_eq_some_iff.mp hj.1.1
  have hle := (held_prefix_left left).length_le
  rw [List.length_append, List.length_cons]
  omega

/-- A call gives the tag at an index: the first one that its bracket holds. -/
def GivesTag (text : List Char) (i : ℕ) : Prop :=
  ∃ (call : Call text) (region : List Char) (j : ℕ), Holds '(' ')' call.left region ∧
    FirstTag region j ∧ i = call.lead.length + 1 + j

lemma givesTag_iff {i : ℕ} : GivesTag text i ↔
    ∃ left ∈ (occurrences mapCall text).map (·.2), givenBy text left = some i := by
  have hgives (call : Call text) : givenBy text call.left = some i ↔
      ∃ j, FirstTag (held '(' ')' call.left) j ∧ i = call.lead.length + 1 + j := by
    have h := @givenBy_lead call.lead call.left i
    rwa [← call.eq_lead] at h
  constructor
  · rintro ⟨call, region, j, hholds, hj, hi⟩
    obtain rfl := (holds_iff (by decide)).mp hholds
    exact ⟨_, mem_calls.mpr ⟨call, rfl⟩, (hgives call).mpr ⟨j, hj, hi⟩⟩
  · rintro ⟨_, hmem, hi⟩
    obtain ⟨call, rfl⟩ := mem_calls.mp hmem
    obtain ⟨j, hj, hi⟩ := (hgives call).mp hi
    exact ⟨call, _, j, (holds_iff (by decide)).mpr rfl, hj, hi⟩

/-! ### Hits -/

/-- The tag at an index ends, and shows neither a key nor an object that is spread. -/
def LacksKey (text : List Char) (i : ℕ) : Prop :=
  ∃ stop tag, tagExtent text (offsetAt text i) = some stop ∧
    slice (offsetAt text i) stop text = .ok tag ∧
    findsAttribute tag "key".toList = .ok false ∧ hasSpread tag = false

/-- What is to be told about the tag at an index, at the place that is counted. -/
inductive Told (text : List Char) (i : ℕ) : Hit → Prop
  | fragment : text[i + 1]? = some '>' →
      Told text i (.at (.ofIndex text i) keyMessage fragmentSuggestion)
  | element : text[i + 1]? ≠ some '>' → LacksKey text i →
      Told text i (.at (.ofIndex text i) keyMessage keySuggestion)

lemma lacksKey_iff {i stop : ℕ} {tag : List Char}
    (hextent : tagExtent text (offsetAt text i) = some stop)
    (hslice : slice (offsetAt text i) stop text = .ok tag) {shown : Bool}
    (hshown : findsAttribute tag "key".toList = .ok shown) :
    LacksKey text i ↔ (shown || hasSpread tag) = false := by
  rw [Bool.or_eq_false_iff]
  constructor
  · rintro ⟨stop', tag', hextent', hslice', hkey, hspread⟩
    obtain rfl : stop = stop' := Option.some.inj (hextent.symm.trans hextent')
    obtain rfl : tag = tag' := Except.ok.inj (hslice.symm.trans hslice')
    exact ⟨Except.ok.inj (hshown.symm.trans hkey), hspread⟩
  · rintro ⟨rfl, hspread⟩
    exact ⟨stop, tag, hextent, hslice, hshown, hspread⟩

lemma told_iff_of_fragment {i : ℕ} (h : text[i + 1]? = some '>') {hit : Hit} :
    Told text i hit ↔ hit = .at (.ofIndex text i) keyMessage fragmentSuggestion := by
  refine ⟨?_, fun heq => heq ▸ .fragment h⟩
  rintro (_ | ⟨hother, -⟩)
  · rfl
  · exact absurd h hother

lemma told_iff_of_element {i : ℕ} (h : text[i + 1]? ≠ some '>') {hit : Hit} :
    Told text i hit ↔ LacksKey text i ∧ hit = .at (.ofIndex text i) keyMessage keySuggestion := by
  refine ⟨?_, fun ⟨hlacks, heq⟩ => heq ▸ .element h hlacks⟩
  rintro (hother | ⟨-, hlacks⟩)
  · exact absurd hother h
  · exact ⟨hlacks, rfl⟩

lemma exists_tagHit? (text : List Char) (i : ℕ) :
    ∃ hit? : Option Hit, tagHit? text (givenTag text i) = .ok (hit?.map Hit.narrow) ∧
      ∀ hit, hit? = some hit ↔ Told text i hit := by
  rw [tagHit?, givenTag]
  dsimp only
  rw [placeAt_offsetAt]
  dsimp only [bind, Except.bind]
  by_cases hangle : text[i + 1]? = some '>'
  · -- a fragment takes no attribute
    rw [if_pos (beq_iff_eq.mpr hangle)]
    refine ⟨some (.at (.ofIndex text i) keyMessage fragmentSuggestion), rfl, fun hit => ?_⟩
    rw [told_iff_of_fragment hangle, Option.some.injEq, eq_comm]
  · rw [if_neg (fun h => hangle (beq_iff_eq.mp h))]
    simp only [told_iff_of_element hangle]
    cases hextent : tagExtent text (offsetAt text i) with
    | none =>
      refine ⟨none, rfl, fun hit => ⟨nofun, ?_⟩⟩
      rintro ⟨⟨stop, tag, hstop, -⟩, -⟩
      exact absurd (hextent.symm.trans hstop) nofun
    | some stop =>
      -- the text of the tag is searched for a key and for a spread
      obtain ⟨tag, hslice, -⟩ := completes_slice_tagExtent hextent
      dsimp only
      rw [hslice]
      have hshown := findsAttribute_eq (by decide : "key".toList ≠ []) tag
      dsimp only
      rw [hshown, lacksKey_iff hextent hslice hshown]
      dsimp only
      cases _ || hasSpread tag with
      | true => exact ⟨none, rfl, fun hit => ⟨nofun, fun hh => absurd hh.1 nofun⟩⟩
      | false =>
        refine ⟨some (.at (.ofIndex text i) keyMessage keySuggestion), rfl, fun hit => ?_⟩
        rw [Option.some.injEq, eq_comm, eq_self, true_and]

lemma place_of_told {i : ℕ} {hit : Hit} (h : Told text i hit) :
    hit.place = .ofIndex text i := by
  cases h <;> rfl

lemma eq_of_take_eq {i j : ℕ} (hi : i < text.length) (hj : j < text.length)
    (h : text.take i = text.take j) : i = j := by
  have hlength := congrArg List.length h
  rw [List.length_take, List.length_take] at hlength
  omega

lemma eq_of_offsetAt_eq {i j : ℕ} (hi : i < text.length) (hj : j < text.length)
    (h : offsetAt text i = offsetAt text j) : i = j := by
  have hcut := splitAtByte_offsetAt text i
  rw [h, splitAtByte_offsetAt] at hcut
  exact (eq_of_take_eq hj hi (Prod.mk.inj (Option.some.inj hcut)).1).symm

lemma eq_of_place_eq {i j : ℕ} (hi : i < text.length) (hj : j < text.length) {a b : Hit}
    (ha : Told text i a) (hb : Told text j b) (h : a.place = b.place) : i = j := by
  rw [place_of_told ha, place_of_told hb] at h
  exact eq_of_take_eq hi hj (eq_of_after_eq (List.take_prefix i text) (List.take_prefix j text) h)

/-- Hits tell once about each tag that some calls give, but for those that were seen before. -/
structure TellsOnce (text : List Char) (seen : List ℕ) (calls : List (List Char))
    (hs : List Hit) : Prop where
  nodup : (hs.map Hit.place).Nodup
  mem_iff : ∀ hit, hit ∈ hs ↔ ∃ left ∈ calls, ∃ i, givenBy text left = some i ∧
    offsetAt text i ∉ seen ∧ Told text i hit

section TellsOnce

variable {seen : List ℕ} {left : List Char} {calls : List (List Char)} {hs : List Hit}

lemma TellsOnce.skip (h : TellsOnce text seen calls hs)
    (hleft : ∀ i, givenBy text left = some i → offsetAt text i ∈ seen) :
    TellsOnce text seen (left :: calls) hs := by
  refine ⟨h.nodup, fun hit => ?_⟩
  rw [h.mem_iff, List.exists_mem_cons_iff, or_iff_right]
  rintro ⟨i, hi, hnew, -⟩
  exact hnew (hleft i hi)

lemma TellsOnce.cons (hcalls : ∀ l ∈ left :: calls, '(' :: l <:+ text) {i : ℕ}
    (h : TellsOnce text (offsetAt text i :: seen) calls hs) (hi : givenBy text left = some i)
    (hnew : offsetAt text i ∉ seen) {hit? : Option Hit}
    (htold : ∀ hit, hit? = some hit ↔ Told text i hit) :
    TellsOnce text seen (left :: calls) (hit?.toList ++ hs) := by
  have hlt := lt_of_givenBy (hcalls left List.mem_cons_self) hi
  have hlater {l : List Char} (hl : l ∈ calls) {j : ℕ} (hj : givenBy text l = some j) :
      j < text.length := lt_of_givenBy (hcalls l (List.mem_cons_of_mem left hl)) hj
  refine ⟨?_, fun hit => ?_⟩
  · -- a later hit at this place would be about this tag, which was seen by then
    cases hit? with
    | none => exact h.nodup
    | some a =>
      refine List.nodup_cons.mpr ⟨fun hmem => ?_, h.nodup⟩
      obtain ⟨b, hb, hplace⟩ := List.mem_map.mp hmem
      obtain ⟨l, hl, j, hj, hunseen, hb⟩ := (h.mem_iff b).mp hb
      obtain rfl := eq_of_place_eq (hlater hl hj) hlt hb ((htold a).mp rfl) hplace
      exact hunseen List.mem_cons_self
  · rw [List.mem_append, Option.mem_toList, htold, h.mem_iff, List.exists_mem_cons_iff]
    constructor
    · rintro (hit | ⟨l, hl, j, hj, hunseen, hit⟩)
      · exact .inl ⟨i, hi, hnew, hit⟩
      · exact .inr ⟨l, hl, j, hj, fun hmem => hunseen (List.mem_cons_of_mem _ hmem), hit⟩
    · rintro (⟨j, hj, -, hit⟩ | ⟨l, hl, j, hj, hunseen, hit⟩)
      · obtain rfl : i = j := Option.some.inj (hi.symm.trans hj)
        exact .inl hit
      · -- a later call may hold the same tag, which is told here
        by_cases hji : j = i
        · subst hji
          exact .inl hit
        · refine .inr ⟨l, hl, j, hj, ?_, hit⟩
          rw [List.mem_cons, not_or]
          exact ⟨fun heq => hji (eq_of_offsetAt_eq (hlater hl hj) hlt heq), hunseen⟩

end TellsOnce

/-- **The run over the calls** tells once about each tag that they give. -/
lemma exists_missingKeysOfCalls {calls : List (List Char)}
    (hcalls : ∀ left ∈ calls, '(' :: left <:+ text) (seen : List ℕ) :
    ∃ hs : List Hit, missingKeysOfCalls text seen calls = .ok (hs.map Hit.narrow) ∧
      TellsOnce text seen calls hs := by
  induction calls generalizing seen with
  | nil => exact ⟨[], rfl, List.nodup_nil, by simp⟩
  | cons left calls ih =>
    have hmore := ih fun l hl => hcalls l (List.mem_cons_of_mem left hl)
    rw [missingKeysOfCalls, tagOfCall?_givenBy (hcalls left List.mem_cons_self)]
    cases hi : givenBy text left with
    | none =>
      obtain ⟨hs, hrun, htells⟩ := hmore seen
      exact ⟨hs, hrun, htells.skip (by simp [hi])⟩
    | some i =>
      change ∃ hs, (if seen.contains (offsetAt text i) = true then _ else _) = _ ∧ _
      by_cases hseen : offsetAt text i ∈ seen
      · obtain ⟨hs, hrun, htells⟩ := hmore seen
        rw [if_pos (List.contains_iff_mem.mpr hseen)]
        exact ⟨hs, hrun, htells.skip (by simp [hi, hseen])⟩
      · obtain ⟨hs, hrun, htells⟩ := hmore (offsetAt text i :: seen)
        obtain ⟨hit?, hhit, htold⟩ := exists_tagHit? text i
        rw [if_neg (mt List.contains_iff_mem.mp hseen)]
        refine ⟨hit?.toList ++ hs, ?_, htells.cons hcalls hi hseen htold⟩
        rw [hhit]
        change (missingKeysOfCalls text (offsetAt text i :: seen) calls >>= _) = _
        rw [hrun, List.map_append]
        cases hit? <;> rfl

/-- The checker without a tree tells, of what fits of their places, the hits for the tags that calls
give, and each of them once. -/
lemma exists_check {src : Source} (htree : src.tree = none) :
    ∃ hs : List Hit, missingKey.check src = .hits (hs.map Hit.narrow) ∧
      (hs.map Hit.place).Nodup ∧
      ∀ h, h ∈ hs ↔ ∃ i, GivesTag src.masked i ∧ Told src.masked i h := by
  have hcalls : ∀ left ∈ (occurrences mapCall src.masked).map (·.2), '(' :: left <:+ src.masked := by
    intro left hleft
    obtain ⟨call, rfl⟩ := mem_calls.mp hleft
    exact ⟨call.lead, call.eq_lead.symm⟩
  obtain ⟨hs, hrun, htells⟩ := exists_missingKeysOfCalls hcalls []
  refine ⟨hs, ?_, htells.nodup, fun h => ?_⟩
  · simp only [missingKey, htree, missingKeysInText, hrun, Outcome.ofChecked]
  · rw [htells.mem_iff]
    simp only [givesTag_iff, List.not_mem_nil, not_false_eq_true, true_and]
    constructor
    · rintro ⟨left, hleft, i, hi, htold⟩
      exact ⟨i, ⟨left, hleft, hi⟩, htold⟩
    · rintro ⟨i, ⟨left, hleft, hi⟩, htold⟩
      exact ⟨left, hleft, i, hi, htold⟩

/-- **Nested calls of `map` tell about each tag once.** However the calls nest, overlap or fail to
close, the checker without a tree tells the tags that calls give: each that is a fragment without a
name, and each that ends and shows neither a key nor an object that is spread. They are told once,
at what fits of the places where they are counted, which all differ; where the places of the tags
fit, these are the places that are told. -/
theorem check_nestedCalls (src : Source) (htree : src.tree = none) :
    ∃ hs : List Hit, missingKey.check src = .hits (hs.map Hit.narrow) ∧
      (hs.map Hit.place).Nodup ∧
      (∀ h, h ∈ hs ↔ ∃ i, GivesTag src.masked i ∧ Told src.masked i h) ∧
      ((∀ i, GivesTag src.masked i → (Position.ofIndex src.masked i).Fits) →
        missingKey.check src = .hits hs) := by
  obtain ⟨hs, hcheck, hnodup, hmem⟩ := exists_check htree
  refine ⟨hs, hcheck, hnodup, hmem, fun hfit => ?_⟩
  rw [hcheck, map_narrow_of_fits fun h hh => ?_]
  obtain ⟨i, hi, htold⟩ := (hmem h).mp hh
  rw [place_of_told htold]
  exact hfit i hi

/-- A call in a call, and one that never closes. -/
def nestedCalls : Source where
  path := ⟨"Grid.tsx"⟩
  content := "rows.map(r => r.map(c => <td>c</td>));\nxs.map (x => <>x</>".toList
  masked := mask "rows.map(r => r.map(c => <td>c</td>));\nxs.map (x => <>x</>".toList
  tree := none
  options := .empty

theorem check_nestedCalls_unclosed :
    nestedCalls.tree = none ∧
    missingKey.check nestedCalls = .hits [.at ⟨1, 26⟩ keyMessage keySuggestion,
      .at ⟨2, 14⟩ keyMessage fragmentSuggestion] ∧
    ∃ i, GivesTag nestedCalls.masked i ∧
      Told nestedCalls.masked i (.at ⟨1, 26⟩ keyMessage keySuggestion) := by
  have htold : missingKey.check nestedCalls = .hits [.at ⟨1, 26⟩ keyMessage keySuggestion,
      .at ⟨2, 14⟩ keyMessage fragmentSuggestion] := by decide +kernel
  have hplaces : PlacesFit nestedCalls.masked := by decide +kernel
  obtain ⟨hs, -, -, hmem, hfitting⟩ := check_nestedCalls nestedCalls rfl
  obtain rfl := Outcome.hits.inj ((hfitting fun i _ => hplaces i).symm.trans htold)
  exact ⟨rfl, htold, (hmem _).mp List.mem_cons_self⟩

/-! ### Tags that are far apart -/

lemma givesTag_fragment (lead rest : List Char) :
    GivesTag (lead ++ (".map(<>)".toList ++ rest)) (lead.length + 5) := by
  refine ⟨⟨lead, [], "<>)".toList ++ rest, rfl, rfl⟩, "<>".toList, 0,
    (holds_iff (by decide)).mpr rfl, ⟨⟨rfl, rfl⟩, nofun⟩, ?_⟩
  rw [Call.lead, List.length_append]
  rfl

lemma told_fragment (lead rest : List Char) :
    Told (lead ++ (".map(<>)".toList ++ rest)) (lead.length + 5)
      (.at (.after (lead ++ ".map(".toList)) keyMessage fragmentSuggestion) := by
  have hplace : Position.ofIndex (lead ++ (".map(<>)".toList ++ rest)) (lead.length + 5) =
      .after (lead ++ ".map(".toList) := by
    rw [Position.ofIndex, List.take_length_add_append]
    rfl
  rw [← hplace]
  refine .fragment ?_
  rw [Nat.add_assoc, List.getElem?_append_right (Nat.le_add_right _ _), Nat.add_sub_cancel_left]
  rfl

lemma after_lineFeeds (n : ℕ) (t : List Char) :
    Position.after (List.replicate n '\n' ++ t) = ⟨(Position.after t).line + n,
      (Position.after t).column⟩ := by
  induction n with
  | zero => rfl
  | succ n ih =>
    have hbreak := after_append_break (p := []) List.not_mem_nil (List.replicate n '\n' ++ t)
    rw [List.nil_append, ih] at hbreak
    exact hbreak

def fragmentCall : List Char := "xs.map(<>)".toList

/-- Two calls that give fragments, as many lines apart as there are numbers of 32 bits. -/
def farFragments : Source where
  path := ⟨"Grid.tsx"⟩
  content := fragmentCall ++ (List.replicate Word.bound32 '\n' ++ fragmentCall)
  masked := mask (fragmentCall ++ (List.replicate Word.bound32 '\n' ++ fragmentCall))
  tree := none
  options := .empty

lemma masked_farFragments : farFragments.masked = farFragments.content := by
  have hcall : ('\n' :: fragmentCall).all (fun c => !isQuote c && c != '/') = true := by decide
  have hplain : ∀ c ∈ '\n' :: fragmentCall, isQuote c = false ∧ c ≠ '/' := fun c hc => by
    simpa using List.all_eq_true.mp hcall c hc
  have hchars : ∀ c ∈ farFragments.content, isQuote c = false ∧ c ≠ '/' := by
    intro c hc
    refine hplain c ?_
    rcases List.mem_append.mp hc with hc | hc
    · exact List.mem_cons_of_mem _ hc
    · rcases List.mem_append.mp hc with hc | hc
      · exact List.mem_cons.mpr (.inl (List.eq_of_mem_replicate hc))
      · exact List.mem_cons_of_mem _ hc
  have hslash (c : Char) : ¬ ['/', c] <:+: farFragments.content := fun h =>
    (hchars '/' (h.subset List.mem_cons_self)).2 rfl
  exact mask_of_plain (fun c hc => (hchars c hc).1) (hslash '/') (hslash '*')

/-- A call that gives an element whose name starts with a letter beyond ASCII. -/
def accentedElement : Source where
  path := ⟨"Grid.tsx"⟩
  content := "xs.map(x => <É />)".toList
  masked := mask "xs.map(x => <É />)".toList
  tree := none
  options := .empty

lemma mem_of_fragment {src : Source} {hs : List Hit}
    (hmem : ∀ h, h ∈ hs ↔ ∃ i, GivesTag src.masked i ∧ Told src.masked i h) {l r : List Char}
    (hsplit : src.masked = l ++ (".map(<>)".toList ++ r)) :
    .at (.after (l ++ ".map(".toList)) keyMessage fragmentSuggestion ∈ hs := by
  refine (hmem _).mpr ⟨l.length + 5, ?_⟩
  rw [hsplit]
  exact ⟨givesTag_fragment l r, told_fragment l r⟩

/-- Two fragments that are too many lines apart are told at one place, and an element whose name
starts with a letter beyond ASCII is not told. -/
theorem check_farFragments :
    (∃ hs, missingKey.check farFragments = .hits hs ∧ ¬ (hs.map Hit.place).Nodup) ∧
    accentedElement.masked = "xs.map(x => ".toList ++ "<É />)".toList ∧
    missingKey.check accentedElement = .hits [] := by
  refine ⟨?_, by decide, by decide +kernel⟩
  obtain ⟨hs, hcheck, -, hmem⟩ := @exists_check farFragments rfl
  have hnear := mem_of_fragment hmem (l := "xs".toList) masked_farFragments
  have hfar := mem_of_fragment hmem (l := fragmentCall ++
    (List.replicate Word.bound32 '\n' ++ "xs".toList)) (r := [])
    (masked_farFragments.trans (by rw [List.append_assoc, List.append_assoc]; rfl))
  have hplace : Position.after (fragmentCall ++ (List.replicate Word.bound32 '\n' ++
      "xs".toList) ++ ".map(".toList) = ⟨1 + Word.bound32, 8⟩ := by
    have hbound : List.replicate Word.bound32 '\n' =
        '\n' :: List.replicate (Word.bound32 - 1) '\n' := List.replicate_succ
    rw [List.append_assoc, List.append_assoc, hbound, List.cons_append,
      after_append_break (by decide), after_lineFeeds]
    rfl
  rw [hplace] at hfar
  refine ⟨_, hcheck, fun hnodup => ?_⟩
  rw [List.map_map] at hnodup
  have heq := congrArg Hit.line (List.inj_on_of_nodup_map hnodup hnear hfar rfl)
  exact absurd heq (by decide)

end CodeHealth.Proofs.NestedMaps
