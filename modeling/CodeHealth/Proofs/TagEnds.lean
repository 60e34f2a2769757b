import CodeHealth.Proofs.OpenBraces
import CodeHealth.Text.Tag
import Mathlib.Order.Bounds.Basic

/-!
Where a tag ends.

A tag ends at the first angle bracket that no brace is open at, its own first character apart. The
search for it counts the open braces, and stays at zero when a brace is closed that none has opened,
so the count is the number of braces that are open, whatever the text. A group of braces leaves the
count as it was, and hides the angle brackets in it.
-/

namespace CodeHealth.Proofs.TagEnds

open CodeHealth.Text CodeHealth.Proofs.OpenBraces

/-! ### The first end -/

section FirstEnd

variable {text : List Char} {e n : ℕ} {c : Char}

/-- A text that starts with a tag may end it at an index: an angle bracket stands there, behind the
first character, and no brace is open. -/
structure MayEnd (text : List Char) (k : ℕ) : Prop where
  behind : 0 < k
  angle : text[k]? = some '>'
  outside : ∀ o, ¬ IsOpen text k o

/-- The search for the end from an index on, with the braces counted that are open there. -/
def endFrom (text : List Char) (e : ℕ) : Option ℕ :=
  tagEnd (openBraces text e).length (text.drop e)

lemma drop_of_getElem? (h : text[e]? = some c) : text.drop e = c :: text.drop (e + 1) := by
  obtain ⟨hlt, rfl⟩ := List.getElem?_eq_some_iff.mp h
  exact List.drop_eq_getElem_cons hlt

lemma endFrom_of_mayEnd (h : MayEnd text e) : endFrom text e = some 1 := by
  have hdepth : (openBraces text e).length = 0 :=
    List.length_eq_zero_iff.mpr (openBraces_eq_nil_iff.mpr h.outside)
  rw [endFrom, hdepth, drop_of_getElem? h.angle, tagEnd, if_neg (by decide), if_neg (by decide),
    if_pos ⟨rfl, rfl⟩]

lemma endFrom_step (he : 0 < e) (hc : text[e]? = some c) (h : ¬ MayEnd text e) :
    endFrom text e = (endFrom text (e + 1)).map (· + 1) := by
  rw [endFrom, endFrom, drop_of_getElem? hc, tagEnd]
  split_ifs with hopen hclose hangle
  · rw [openBraces_open (hc.trans (congrArg some hopen)), List.length_cons]
  · rw [openBraces_close (hc.trans (congrArg some hclose)), List.length_tail]
  · obtain ⟨rfl, hdepth⟩ := hangle
    exact absurd ⟨he, hc, openBraces_eq_nil_iff.mp (List.length_eq_zero_iff.mp hdepth)⟩ h
  · rw [openBraces_other (by simpa [hc] using hopen) (by simpa [hc] using hclose)]

/-- The indices from one on at which the tag may end. -/
def endsFrom (text : List Char) (e : ℕ) : Set ℕ := {k | e ≤ k ∧ MayEnd text k}

lemma endsFrom_succ (h : ¬ MayEnd text e) : endsFrom text (e + 1) = endsFrom text e := by
  ext k
  refine and_congr_left fun hend => ⟨Nat.le_of_succ_le, fun hle => Nat.lt_of_le_of_ne hle ?_⟩
  rintro rfl
  exact h hend

lemma endFrom_eq_some_iff (he : 0 < e) :
    endFrom text e = some n ↔ ∃ k, n + e = k + 1 ∧ IsLeast (endsFrom text e) k := by
  -- by what is left of the text: an index at which the tag may not end is no end from there on
  induction hleft : text.length - e generalizing e n with
  | zero =>
    rw [endFrom, List.drop_of_length_le (by omega), tagEnd]
    refine ⟨nofun, ?_⟩
    rintro ⟨k, -, ⟨hle, hend⟩, -⟩
    have hbehind : text[k]? = none := List.getElem?_eq_none (by omega)
    exact absurd (hbehind.symm.trans hend.angle) nofun
  | succ left ih =>
    by_cases hend : MayEnd text e
    · have hleast : IsLeast (endsFrom text e) e := ⟨⟨le_rfl, hend⟩, fun k hk => hk.1⟩
      rw [endFrom_of_mayEnd hend]
      constructor
      · rintro ⟨⟩
        exact ⟨e, Nat.add_comm 1 e, hleast⟩
      · rintro ⟨k, hn, hk⟩
        obtain rfl := hk.unique hleast
        exact congrArg some (by omega)
    · have hlt : e < text.length := by omega
      rw [endFrom_step he (List.getElem?_eq_getElem hlt) hend, Option.map_eq_some_iff,
        ← endsFrom_succ hend]
      constructor
      · rintro ⟨m, hm, rfl⟩
        obtain ⟨k, hk, hleast⟩ := (ih (Nat.succ_pos e) (by omega)).mp hm
        exact ⟨k, by omega, hleast⟩
      · rintro ⟨k, hk, hleast⟩
        have hle : e + 1 ≤ k := hleast.1.1
        exact ⟨n - 1, (ih (Nat.succ_pos e) (by omega)).mpr ⟨k, by omega, hleast⟩, by omega⟩

lemma tagLength_cons (c : Char) (cs : List Char) :
    tagLength (c :: cs) = (endFrom (c :: cs) 1).map (· + 1) := by
  have hdepth : (openBraces (c :: cs) 1).length = if c = '\x7b' then 1 else 0 := by
    have hnone : openBraces (c :: cs) 0 = [] := rfl
    have hc : (c :: cs)[0]? = some c := rfl
    split_ifs with hopen
    · rw [openBraces_open (hc.trans (congrArg some hopen)), hnone]
      rfl
    · by_cases hclose : c = '\x7d'
      · rw [openBraces_close (hc.trans (congrArg some hclose)), hnone]
        rfl
      · rw [openBraces_other (by simpa using hopen) (by simpa using hclose), hnone]
        rfl
  rw [tagLength, endFrom, hdepth]
  rfl

lemma tagLength_eq_some_iff :
    tagLength text = some n ↔ ∃ k, n = k + 1 ∧ IsLeast {k | MayEnd text k} k := by
  have hends : {k | MayEnd text k} = endsFrom text 1 :=
    Set.ext fun k => ⟨fun h => ⟨h.behind, h⟩, And.right⟩
  rw [hends]
  cases text with
  | nil =>
    refine ⟨nofun, ?_⟩
    rintro ⟨k, -, ⟨-, hend⟩, -⟩
    exact absurd hend.angle nofun
  | cons c cs =>
    rw [tagLength_cons, Option.map_eq_some_iff]
    constructor
    · rintro ⟨m, hm, rfl⟩
      exact (endFrom_eq_some_iff Nat.one_pos).mp hm
    · rintro ⟨k, rfl, hleast⟩
      exact ⟨k, (endFrom_eq_some_iff Nat.one_pos).mpr ⟨k, rfl, hleast⟩, rfl⟩

lemma tagExtent_eq_some_iff {start stop : ℕ} :
    tagExtent text start = some stop ↔
      ∃ lead rest k, text = lead ++ rest ∧ byteLength lead = start ∧
        IsLeast {k | MayEnd rest k} k ∧ stop = byteLength (lead ++ rest.take (k + 1)) := by
  constructor
  · intro h
    unfold tagExtent at h
    split at h
    case h_1 lead rest hsplit =>
      obtain ⟨n, hn, rfl⟩ := Option.map_eq_some_iff.mp h
      obtain ⟨k, rfl, hleast⟩ := tagLength_eq_some_iff.mp hn
      obtain ⟨rfl, rfl⟩ := eq_of_splitAtByte hsplit
      exact ⟨lead, rest, k, rfl, rfl, hleast, (byteLength_append _ _).symm⟩
    case h_2 => cases h
  · rintro ⟨lead, rest, k, rfl, rfl, hleast, rfl⟩
    simp only [tagExtent, splitAtByte_byteLength, tagLength_eq_some_iff.mpr ⟨k, rfl, hleast⟩,
      Option.map_some, byteLength_append]

end FirstEnd

/-! ### Tags with groups of braces -/

section Groups

variable {s s' : List Char} {c : Char}

/-- A text whose braces are opened and closed in pairs. -/
inductive Paired : List Char → Prop
  | nil : Paired []
  | plain {c : Char} {s : List Char} : c ≠ '\x7b' → c ≠ '\x7d' → Paired s → Paired (c :: s)
  | group {inner after : List Char} : Paired inner → Paired after →
      Paired ('\x7b' :: (inner ++ '\x7d' :: after))

lemma paired_of_all (h : s.all (fun c => c != '\x7b' && c != '\x7d') = true) : Paired s := by
  induction s with
  | nil => exact .nil
  | cons c s ih =>
    rw [List.all_cons, Bool.and_eq_true, Bool.and_eq_true, bne_iff_ne, bne_iff_ne] at h
    exact .plain h.1.1 h.1.2 (ih h.2)

lemma Paired.append (h : Paired s) (h' : Paired s') : Paired (s ++ s') := by
  induction h with
  | nil => exact h'
  | plain hopener hcloser _ ih => exact .plain hopener hcloser ih
  | group hinner _ _ ih =>
    rw [List.cons_append, List.append_assoc, List.cons_append]
    exact .group hinner ih

/-- The characters of a tag that mean nothing to the search for its end. -/
def isPlain (c : Char) : Bool := c != '\x7b' && c != '\x7d' && c != '>'

/-- What may stand in a tag between its angle brackets: characters that are no braces and no angle
brackets that close, and groups of braces with anything in pairs of braces inside. -/
inductive TagBody : List Char → Prop
  | nil : TagBody []
  | plain {c : Char} {s : List Char} : isPlain c = true → TagBody s → TagBody (c :: s)
  | group {inner after : List Char} : Paired inner → TagBody after →
      TagBody ('\x7b' :: (inner ++ '\x7d' :: after))

lemma TagBody.append (h : TagBody s) (h' : TagBody s') : TagBody (s ++ s') := by
  induction h with
  | nil => exact h'
  | plain hc _ ih => exact .plain hc ih
  | group hinner _ ih =>
    rw [List.cons_append, List.append_assoc, List.cons_append]
    exact .group hinner ih

lemma tagBody_of_all (h : s.all isPlain = true) : TagBody s := by
  induction s with
  | nil => exact .nil
  | cons c s ih =>
    rw [List.all_cons, Bool.and_eq_true] at h
    exact .plain h.1 (ih h.2)

lemma tagEnd_other (hopener : c ≠ '\x7b') (hcloser : c ≠ '\x7d') {depth : ℕ}
    (hangle : c = '>' → depth ≠ 0) (cs : List Char) :
    tagEnd depth (c :: cs) = (tagEnd depth cs).map (· + 1) := by
  rw [tagEnd, if_neg hopener, if_neg hcloser, if_neg fun h => hangle h.1 h.2]

lemma map_add_map (found : Option ℕ) (a b : ℕ) :
    (found.map (· + a)).map (· + b) = found.map (· + (a + b)) := by
  rw [Option.map_map]
  congr 1
  funext k
  exact Nat.add_assoc k a b

lemma tagEnd_group {inner : List Char} {depth : ℕ}
    (hinner : ∀ rest, tagEnd (depth + 1) (inner ++ rest) =
      (tagEnd (depth + 1) rest).map (· + inner.length)) (rest : List Char) :
    tagEnd depth ('\x7b' :: (inner ++ '\x7d' :: rest)) =
      (tagEnd depth rest).map (· + (inner.length + 2)) := by
  have hclose : tagEnd (depth + 1) ('\x7d' :: rest) = (tagEnd depth rest).map (· + 1) := by
    rw [tagEnd, if_neg (by decide), if_pos rfl, Nat.add_sub_cancel]
  calc tagEnd depth ('\x7b' :: (inner ++ '\x7d' :: rest))
    _ = (tagEnd (depth + 1) (inner ++ '\x7d' :: rest)).map (· + 1) := by rw [tagEnd, if_pos rfl]
    _ = (((tagEnd depth rest).map (· + 1)).map (· + inner.length)).map (· + 1) := by
        rw [hinner, hclose]
    _ = (tagEnd depth rest).map (· + (inner.length + 2)) := by
        rw [map_add_map, map_add_map, Nat.add_comm 1, Nat.add_assoc]

lemma length_group (inner after : List Char) :
    ('\x7b' :: (inner ++ '\x7d' :: after)).length = after.length + (inner.length + 2) := by
  rw [List.length_cons, List.length_append, List.length_cons]
  omega

lemma tagEnd_paired (h : Paired s) (depth : ℕ) (rest : List Char) :
    tagEnd (depth + 1) (s ++ rest) = (tagEnd (depth + 1) rest).map (· + s.length) := by
  induction h generalizing depth rest with
  | nil => simp
  | plain hopener hcloser _ ih =>
    rw [List.cons_append, tagEnd_other hopener hcloser fun _ => Nat.succ_ne_zero depth, ih,
      map_add_map]
    rfl
  | @group inner after _ _ ihInner ihAfter =>
    rw [List.cons_append, List.append_assoc, List.cons_append, tagEnd_group (ihInner (depth + 1)),
      ihAfter, map_add_map, length_group]

lemma tagEnd_tagBody (h : TagBody s) (rest : List Char) :
    tagEnd 0 (s ++ rest) = (tagEnd 0 rest).map (· + s.length) := by
  induction h generalizing rest with
  | nil => simp
  | plain hc _ ih =>
    simp only [isPlain, Bool.and_eq_true, bne_iff_ne] at hc
    rw [List.cons_append, tagEnd_other hc.1.1 hc.1.2 fun h => absurd h hc.2, ih, map_add_map]
    rfl
  | @group inner after hinner _ ih =>
    rw [List.cons_append, List.append_assoc, List.cons_append, tagEnd_group (tagEnd_paired hinner 0),
      ih, map_add_map, length_group]

lemma tagLength_tagBody {body : List Char} (h : TagBody body) (behind : List Char) :
    tagLength ('<' :: (body ++ '>' :: behind)) = some ('<' :: (body ++ ['>'])).length := by
  rw [tagLength, if_neg (by decide), tagEnd_tagBody h, tagEnd, if_neg (by decide),
    if_neg (by decide), if_pos ⟨rfl, rfl⟩, Option.map_some, Option.map_some, List.length_cons,
    List.length_append, Nat.add_comm 1]
  rfl

lemma tagExtent_tagBody {body : List Char} (h : TagBody body) (lead behind : List Char) :
    tagExtent (lead ++ '<' :: (body ++ '>' :: behind)) (byteLength lead) =
      some (byteLength (lead ++ '<' :: (body ++ ['>']))) := by
  have htake : ('<' :: (body ++ '>' :: behind)).take ('<' :: (body ++ ['>'])).length =
      '<' :: (body ++ ['>']) := by
    have hsplit : '<' :: (body ++ '>' :: behind) = '<' :: (body ++ ['>']) ++ behind := by simp
    rw [hsplit, List.take_left]
  simp only [tagExtent, splitAtByte_byteLength, tagLength_tagBody h, Option.map_some, htake,
    byteLength_append]

end Groups

/-- **The end of a tag is found exactly.** A tag with any groups of braces in it is read to its last
character, whatever stands before it and behind it. And whatever an offset of a text is, an end that
is found there stands behind an angle bracket, the first one from the offset on that is not the
first character and at which no brace is open; if there is one, it is found. -/
theorem tagExtent_exact :
    (∀ lead body behind, TagBody body →
      tagExtent (lead ++ '<' :: (body ++ '>' :: behind)) (byteLength lead) =
        some (byteLength (lead ++ '<' :: (body ++ ['>'])))) ∧
    ∀ text start stop, tagExtent text start = some stop ↔
      ∃ lead rest k, text = lead ++ rest ∧ byteLength lead = start ∧
        IsLeast {k | MayEnd rest k} k ∧ stop = byteLength (lead ++ rest.take (k + 1)) :=
  ⟨fun lead _ behind h => tagExtent_tagBody h lead behind, fun _ _ _ => tagExtent_eq_some_iff⟩

/-- What stands in a tag with a block of code in an attribute. -/
def blockBody : List Char :=
  "img onLoad=".toList ++
    '\x7b' :: ("() => ".toList ++ '\x7b' :: ("a > b".toList ++ '\x7d' :: []) ++
      '\x7d' :: " alt=\"é\" /".toList)

/-- A closing brace before the tag and an angle bracket behind it do not matter. -/
theorem tagExtent_exact_block :
    TagBody blockBody ∧
      tagExtent ("é\x7d".toList ++ '<' :: (blockBody ++ '>' :: " > tail".toList)) 3 = some 42 := by
  have hbody : TagBody blockBody :=
    (tagBody_of_all (by decide)).append (.group
      ((paired_of_all (by decide)).append (.group (paired_of_all (by decide)) .nil))
      (tagBody_of_all (by decide)))
  exact ⟨hbody, tagExtent_exact.1 "é\x7d".toList blockBody " > tail".toList hbody⟩

/-- A closing brace without a partner does not keep the tag open, and an open brace does. -/
example : tagExtent "<a \x7d b> c>".toList 0 = some 7 ∧ tagExtent "<a \x7b b> c>".toList 0 = none := by
  decide

end CodeHealth.Proofs.TagEnds
