import CodeHealth.Proofs.SteadyCheckers
import Mathlib.Data.Set.List

/-!
Calls of hooks that watch values.

The readings of the checker are the calls in the text: an earlier reading is at an end before a later
name starts, since what stands before a whole word belongs to no name. A call is told if its bracket
closes with fewer than two pieces before it. These are its arguments, but for a comma behind the last
one, which is taken for the start of one more.
-/

namespace CodeHealth.Proofs.DependencyArguments

open CodeHealth.Check CodeHealth.Text
open CodeHealth.Proofs.ArgumentPieces CodeHealth.Proofs.BracketCounts CodeHealth.Proofs.Completion
open CodeHealth.Proofs.LineHits CodeHealth.Proofs.Recognition CodeHealth.Proofs.SteadyCheckers
open CodeHealth.Proofs.TextLines

/-! ### Calls -/

/-- A call of a hook that watches values: its name as a whole word, blanks if there are any, and the
bracket. -/
structure Call (text : List Char) where
  before : List Char
  name : List Char
  blanks : List Char
  /-- What follows the bracket. -/
  left : List Char
  spells : text = before ++ (name ++ (blanks ++ '(' :: left))
  watches : name ∈ watchingHooks
  blank : isBlankText blanks = true
  whole : before.getLast?.any isWordChar = false

def Call.hit {text : List Char} (call : Call text) : Hit :=
  .at (Position.after call.before).narrow ("`" ++ String.ofList call.name ++ "` has no dependency array")
    "Pass a dependency array listing every value the callback reads"

lemma watchingHooks_words : ∀ name ∈ watchingHooks, name.all isWordChar = true := by decide

lemma watchingHooks_head : ∀ name ∈ watchingHooks, name.head? = some 'u' := by decide

lemma watchingHooks_apart : ∀ a ∈ watchingHooks, ∀ b ∈ watchingHooks, a <+: b → a = b := by decide

/-- No name of a hook starts with another one, so a text starts with one of them at most. -/
lemma eq_of_prefixes {a b r : List Char} (ha : a ∈ watchingHooks) (hb : b ∈ watchingHooks)
    (hra : a <+: r) (hrb : b <+: r) : a = b := by
  rcases List.prefix_or_prefix_of_prefix hra hrb with h | h
  · exact watchingHooks_apart a ha b hb h
  · exact (watchingHooks_apart b hb a ha h).symm

lemma watchingCall_eq_some {before : Option Char} {rest name left left' : List Char} :
    watchingCall before rest = some ((name, left), left') ↔
      name ∈ watchingHooks ∧ before.any isWordChar = false ∧ left' = left ∧
        ∃ blanks, isBlankText blanks = true ∧ rest = name ++ (blanks ++ '(' :: left) := by
  have hhead : ∀ n ∈ watchingHooks, ∀ r, (n ++ r).head?.any isWordChar = true := by
    intro n hn r
    rw [List.head?_append, watchingHooks_head n hn]
    rfl
  constructor
  · intro h
    unfold watchingCall at h
    split_ifs at h with hboundary
    obtain ⟨word, hword, h⟩ := List.exists_of_findSome?_eq_some h
    obtain ⟨l, hcall, heq⟩ := Option.map_eq_some_iff.mp h
    cases heq
    obtain ⟨blanks, hblanks, rfl⟩ := (afterWordAndMark_eq_some (by decide)).mp hcall
    refine ⟨hword, ?_, rfl, blanks, hblanks, rfl⟩
    rw [atBoundary, hhead _ hword] at hboundary
    simpa using hboundary
  · rintro ⟨hname, hbefore, rfl, hcall⟩
    have hread := (afterWordAndMark_eq_some (by decide)).mpr hcall
    obtain ⟨blanks, -, rfl⟩ := hcall
    rw [watchingCall, atBoundary, hbefore, hhead _ hname, if_neg (by decide)]
    cases hfound : watchingHooks.findSome? fun name' => ((afterWord? name'
        (name ++ (blanks ++ '(' :: left'))).bind (afterMark? '(')).map fun l => ((name', l), l) with
    | none =>
      have hnone := List.findSome?_eq_none_iff.mp hfound name hname
      rw [hread] at hnone
      cases hnone
    | some found =>
      obtain ⟨word, hword, hfound⟩ := List.exists_of_findSome?_eq_some hfound
      obtain ⟨l, hcall, rfl⟩ := Option.map_eq_some_iff.mp hfound
      obtain ⟨blanks', -, heq⟩ := (afterWordAndMark_eq_some (by decide)).mp hcall
      obtain rfl : word = name := eq_of_prefixes hword hname (List.prefix_append word _)
        (heq ▸ List.prefix_append name _)
      rw [hread] at hcall
      cases hcall
      rfl

variable {text : List Char}

lemma Call.reading (call : Call text) :
    watchingCall call.before.getLast? (call.name ++ (call.blanks ++ '(' :: call.left)) =
      some ((call.name, call.left), call.left) :=
  watchingCall_eq_some.mpr ⟨call.watches, call.whole, rfl, call.blanks, call.blank, rfl⟩

lemma Call.endsBefore (call : Call text) : EndsBefore watchingCall text call.before := by
  rintro before behind ⟨name, left⟩ left' htext hearlier hread
  obtain ⟨hname, -, rfl, blanks, hblanks, rfl⟩ := watchingCall_eq_some.mp hread
  obtain ⟨tail, htail⟩ : ∃ tail, call.name ++ (call.blanks ++ '(' :: call.left) = 'u' :: tail := by
    obtain ⟨tail, htail⟩ := List.head?_eq_some_iff.mp (watchingHooks_head _ call.watches)
    exact ⟨tail ++ (call.blanks ++ '(' :: call.left), by rw [htail]; rfl⟩
  have hspells := call.spells
  rw [htail] at hspells
  have hle := length_le_of_whole_word (htext.symm.trans hspells) (watchingHooks_words _ hname)
    hblanks (by decide) hearlier call.whole
  rwa [← hspells] at hle

lemma Call.take_eq (call : Call text) : text.take call.before.length = call.before :=
  (congrArg (List.take call.before.length) call.spells).trans List.take_left

lemma exists_call {i : ℕ} {name left : List Char}
    (h : (i, name, left) ∈ occurrences watchingCall text) :
    ∃ call : Call text, call.before.length = i ∧ call.name = name ∧ call.left = left := by
  obtain ⟨before, behind, left', rfl, rfl, hread⟩ := exists_of_mem_occurrences h
  obtain ⟨hname, hbefore, -, blanks, hblanks, rfl⟩ := watchingCall_eq_some.mp hread
  exact ⟨⟨before, name, blanks, left, rfl, hname, hblanks, hbefore⟩, rfl, rfl, rfl⟩

lemma Call.mem_occurrences (call : Call text) :
    (call.before.length, call.name, call.left) ∈ occurrences watchingCall text := by
  have hends := call.endsBefore
  have hne : call.name ++ (call.blanks ++ '(' :: call.left) ≠ [] := by simp
  have hmem := Recognition.mem_occurrences (call.spells ▸ hends) hne call.reading
  rwa [← call.spells] at hmem

lemma Call.eq_of_before_eq {call call' : Call text} (h : call.before = call'.before) :
    call = call' := by
  have hread := call.reading
  have hspells := call.spells
  rw [h] at hread hspells
  have hrest := List.append_cancel_left (hspells.symm.trans call'.spells)
  rw [hrest, call'.reading] at hread
  simp only [Option.some.injEq, Prod.mk.injEq] at hread
  obtain ⟨⟨hname, hleft⟩, -⟩ := hread
  rw [hname, hleft, List.append_cancel_left_eq, List.append_cancel_right_eq] at hrest
  cases call
  cases call'
  simp_all only

def Call.found (call : Call text) : ℕ × List Char × List Char :=
  (call.before.length, call.name, call.left)

lemma Call.eq_of_length_eq {call call' : Call text}
    (h : call.before.length = call'.before.length) : call = call' := by
  refine Call.eq_of_before_eq ?_
  rw [← call.take_eq, ← call'.take_eq, h]

lemma exists_calls (text : List Char) :
    ∃ calls : List (Call text), calls.map Call.found = occurrences watchingCall text := by
  have hrange : occurrences watchingCall text ∈ Set.range (List.map (@Call.found text)) := by
    rw [Set.range_list_map]
    rintro ⟨i, name, left⟩ hmem
    obtain ⟨call, rfl, rfl, rfl⟩ := exists_call hmem
    exact ⟨call, rfl⟩
  exact hrange

section Calls

variable {calls : List (Call text)} (hcalls : calls.map Call.found = occurrences watchingCall text)

include hcalls

lemma mem_of_found (call : Call text) : call ∈ calls := by
  have hmem := call.mem_occurrences
  rw [← hcalls] at hmem
  obtain ⟨call', hmem', heq⟩ := List.mem_map.mp hmem
  rwa [← Call.eq_of_length_eq (Prod.mk.inj heq).1]

lemma pairwise_of_found : calls.Pairwise fun a b => a.before.length < b.before.length := by
  have hordered := pairwise_occurrences (r := watchingCall) text
  rw [← hcalls, List.pairwise_map] at hordered
  exact hordered

end Calls

/-! ### Hits -/

def bareCalls (calls : List (Call text)) : List (Call text) := calls.filter fun call => isBare call.left

lemma mem_bareCalls {calls : List (Call text)}
    (hcalls : calls.map Call.found = occurrences watchingCall text) (call : Call text) :
    call ∈ bareCalls calls ↔ isBare call.left = true := by
  rw [bareCalls, List.mem_filter, and_iff_right (mem_of_found hcalls call)]

lemma check_eq {src : Source} (hfew : src.masked.countP isBracket < Word.signedBound32)
    {calls : List (Call src.masked)}
    (hcalls : calls.map Call.found = occurrences watchingCall src.masked) :
    missingDependencies.check src = .hits ((bareCalls calls).map Call.hit) := by
  have hread : ∀ call ∈ calls,
      watchingHit? src.masked call.found.1 call.found.2.1 call.found.2.2 =
        .ok (if isBare call.left then some call.hit else none) := by
    intro call _
    have hsuffix : '(' :: call.left <:+ src.masked :=
      suffix_of_mem_occurrences (fun call => '(' :: call.2)
        (fun _ _ _ _ => watchingCall_suffix) call.mem_occurrences
    refine (watchingHit?_eq hsuffix hfew _ _).trans ?_
    change Except.ok (if isBare call.left then
      some (Hit.at (Position.ofIndex src.masked call.before.length).narrow _ _) else none) = _
    rw [Position.ofIndex, call.take_eq]
    rfl
  have hreadings := filterMapM_map_eq
    (f := fun found : ℕ × List Char × List Char =>
      watchingHit? src.masked found.1 found.2.1 found.2.2) hread
  rw [hcalls, filterMap_ite] at hreadings
  exact congrArg Outcome.ofChecked hreadings

lemma Call.precedes {a b : Call text} (h : a.before.length < b.before.length) :
    Precedes (.after a.before) (.after b.before) := by
  obtain ⟨between, hbetween⟩ := List.prefix_of_prefix_length_le
    ⟨_, a.spells.symm⟩ ⟨_, b.spells.symm⟩ h.le
  rw [← hbetween]
  refine precedes_after ?_
  rintro rfl
  rw [← hbetween, List.append_nil] at h
  exact h.false

lemma Call.place_hit (hfit : PlacesFit text) (call : Call text) :
    call.hit.place = .after call.before := by
  have h : (Position.ofIndex text call.before.length).Fits := hfit _
  rw [Position.ofIndex, call.take_eq] at h
  exact h.narrow_eq

lemma isBare_of_unclosed {left : List Char} (h : Unclosed left) : isBare left = false := by
  rw [isBare, closeWithin_of_unclosed h]
  rfl

lemma isBare_of_balanced {args behind : List Char} (h : Balanced args) :
    isBare (args ++ ')' :: behind) = true ↔ (piecesOf args).length < 2 := by
  rw [isBare, closeWithin_of_balanced h, Option.any_some, List.take_left, decide_eq_true_iff]

/-- **Hooks without a list of what they watch.** The checker tells calls only, from left to right,
each at its name; where the places of the text fit 32 bits, their places are in order and tell which
calls they are. It does not tell a call whose bracket never closes; and one whose arguments are
balanced it tells if and only if they have fewer than two pieces. That is what fewer than two
arguments come to if and only if no comma stands behind a lone argument. -/
theorem check_calls (src : Source) (hfew : src.masked.countP isBracket < 2 ^ 31) :
    ∃ told : List (Call src.masked),
      missingDependencies.check src = .hits (told.map Call.hit) ∧
      (told.Pairwise fun a b => a.before.length < b.before.length) ∧
      (PlacesFit src.masked → (told.map Call.hit).Pairwise Before ∧
        ∀ call : Call src.masked, call.hit ∈ told.map Call.hit ↔ call ∈ told) ∧
      ∀ call : Call src.masked,
        (Unclosed call.left → call ∉ told) ∧
        ∀ args behind, call.left = args ++ ')' :: behind → Balanced args →
          (call ∈ told ↔ (piecesOf args).length < 2) ∧
          ((call ∈ told ↔ (argumentsOf args).length < 2) ↔
            ¬ ((piecesOf args).length = 2 ∧ endsBlank args = true)) := by
  obtain ⟨calls, hcalls⟩ := exists_calls src.masked
  have hordered := (pairwise_of_found hcalls).filter fun call => isBare call.left
  refine ⟨bareCalls calls, check_eq hfew hcalls, hordered, fun hfit => ⟨?_, fun call => ?_⟩,
    fun call => ⟨fun hunclosed => ?_, fun args behind hleft hargs => ?_⟩⟩
  · refine List.pairwise_map.mpr (hordered.imp fun {a b} hlt => ?_)
    rw [Before, a.place_hit hfit, b.place_hit hfit]
    exact Call.precedes hlt
  · refine ⟨fun hmem => ?_, List.mem_map_of_mem⟩
    obtain ⟨call', hmem', hhit⟩ := List.mem_map.mp hmem
    have hplace := congrArg Hit.place hhit
    rw [call'.place_hit hfit, call.place_hit hfit] at hplace
    have hbefore := eq_of_after_eq ⟨_, call'.spells.symm⟩ ⟨_, call.spells.symm⟩ hplace
    rwa [← Call.eq_of_before_eq hbefore]
  · rw [mem_bareCalls hcalls, isBare_of_unclosed hunclosed]
    exact Bool.false_ne_true
  · have hmem : call ∈ bareCalls calls ↔ (piecesOf args).length < 2 := by
      rw [mem_bareCalls hcalls, hleft, isBare_of_balanced hargs]
    exact ⟨hmem, by rw [hmem, length_argumentsOf]⟩

/-- A call without a list, with a blank before its bracket. -/
def bareCallback : Source where
  path := ⟨"App.tsx"⟩
  content := "const f = useCallback (() => save);\n".toList
  masked := mask "const f = useCallback (() => save);\n".toList
  tree := none
  options := .empty

theorem check_calls_bareCallback :
    bareCallback.masked.countP isBracket < 2 ^ 31 ∧
    ∃ hs, missingDependencies.check bareCallback = .hits hs ∧
      .at ⟨1, 11⟩ "`useCallback` has no dependency array"
        "Pass a dependency array listing every value the callback reads" ∈ hs := by
  have hfew : bareCallback.masked.countP isBracket < 2 ^ 31 := by decide
  obtain ⟨told, hcheck, -, -, hcalls⟩ := check_calls bareCallback hfew
  let call : Call bareCallback.masked :=
    ⟨"const f = ".toList, "useCallback".toList, " ".toList, "() => save);\n".toList, by decide,
      by decide, by decide, by decide⟩
  have hargs : Balanced "() => save".toList :=
    .group rfl .nil (balanced_of_plain (by decide))
  have htold := ((hcalls call).2 "() => save".toList ";\n".toList rfl hargs).1
  exact ⟨hfew, _, hcheck, List.mem_map.mpr ⟨call, htold.mpr (by decide), by decide⟩⟩

/-- A call with one argument, and a comma behind it. -/
def trailingComma : Source where
  path := ⟨"App.tsx"⟩
  content := "useEffect(() => save,\n);\n".toList
  masked := mask "useEffect(() => save,\n);\n".toList
  tree := none
  options := .empty

/-- A comma behind a lone argument hides that there is no list. -/
theorem check_trailingComma :
    (∃ call : Call trailingComma.masked, call.before = [] ∧
      call.left = "() => save,\n".toList ++ ')' :: ";\n".toList) ∧
    Balanced "() => save,\n".toList ∧
    argumentsOf "() => save,\n".toList = ["() => save".toList] ∧
    missingDependencies.check trailingComma = .hits [] := by
  refine ⟨⟨⟨[], "useEffect".toList, [], _, by decide, by decide, rfl, rfl⟩, rfl, rfl⟩, ?_,
    by decide, by decide +kernel⟩
  exact .group rfl .nil (balanced_of_plain (by decide))

end CodeHealth.Proofs.DependencyArguments
