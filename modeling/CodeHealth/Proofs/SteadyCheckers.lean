import CodeHealth.Proofs.ArgumentPieces
import CodeHealth.Proofs.ByteScans
import CodeHealth.Proofs.Completion
import CodeHealth.Proofs.ConditionalCalls
import CodeHealth.Proofs.Evaluation
import CodeHealth.Proofs.HeaderReading
import CodeHealth.Proofs.LinePlaces
import CodeHealth.Proofs.LooseComparisons
import CodeHealth.Proofs.MaskedPlaces

/-!
The checkers of the catalog never fail.

Byte offsets come from what recognisers read, from brackets, tags and words that were found, and
from one another by small steps. Each of them stands between two characters, since what was found
there is ASCII, and the offsets of one check come in order.
-/

namespace CodeHealth.Proofs.SteadyCheckers

open CodeHealth.Check CodeHealth.Text
open CodeHealth.Proofs.ArgumentPieces CodeHealth.Proofs.BracketCounts CodeHealth.Proofs.ByteScans
open CodeHealth.Proofs.Completion CodeHealth.Proofs.Evaluation CodeHealth.Proofs.HeaderReading
open CodeHealth.Proofs.LinePlaces
open CodeHealth.Proofs.MaskedPlaces
open CodeHealth.Proofs.Recognition CodeHealth.Proofs.TextLines CodeHealth.Proofs.Utf8Bytes

/-! ### Brackets behind what was read -/

lemma exists_opening {text left : List Char} (h : '(' :: left <:+ text) :
    ∃ lead, text = lead ++ '(' :: left ∧
      minus (offsetAt text (text.length - left.length)) 1 = .ok (byteLength lead) := by
  obtain ⟨lead, rfl⟩ := h
  refine ⟨lead, rfl, ?_⟩
  have hlength : (lead ++ '(' :: left).length - left.length = (lead ++ ['(']).length := by
    simp only [List.length_append, List.length_cons, List.length_nil]
    omega
  rw [hlength, List.append_cons, offsetAt_length, byteLength_append]
  exact minus_of_le (Nat.le_add_left 1 _)

/-! ### Hooks -/

lemma watchingCall_suffix {before : Option Char} {rest name left left' : List Char}
    (h : watchingCall before rest = some ((name, left), left')) : '(' :: left <:+ rest := by
  unfold watchingCall at h
  split_ifs at h
  obtain ⟨word, -, h⟩ := List.exists_of_findSome?_eq_some h
  obtain ⟨l, hcall, heq⟩ := Option.map_eq_some_iff.mp h
  cases heq
  exact afterWordAndMark_suffix hcall

/-- Whether the bracket of a call closes and no comma stands outside all brackets before it does. -/
def isBare (left : List Char) : Bool :=
  (closeWithin '(' ')' 1 left).any fun k => (piecesOf (left.take k)).length < 2

lemma watchingHit?_eq {text left : List Char} (h : '(' :: left <:+ text)
    (hfew : text.countP isBracket < Word.signedBound32) (i : ℕ) (name : List Char) :
    watchingHit? text i name left =
      .ok (if isBare left then some (.at (Position.ofIndex text i).narrow
        ("`" ++ String.ofList name ++ "` has no dependency array")
        "Pass a dependency array listing every value the callback reads") else none) := by
  obtain ⟨lead, rfl, hopening⟩ := exists_opening h
  rw [watchingHit?, hopening, isBare]
  change (closeOf _ _ >>= _) = _
  rw [closeOf_opener rfl]
  cases hclose : closeWithin '(' ')' 1 left with
  | none => rfl
  | some k =>
    have hslice := slice_append (lead ++ ['(']) (left.take k) (left.drop k)
    rw [List.take_append_drop, ← List.append_cons, byteLength_append] at hslice
    -- the arguments have no more brackets than the text, so the depth stays in its word
    have htake : (left.take k).Sublist (lead ++ '(' :: left) :=
      (List.take_sublist k left).trans
        ((List.sublist_cons_self '(' left).trans (List.sublist_append_right lead _))
    have hfewer : 0 + (left.take k).countP isBracket < Word.signedBound32 :=
      calc 0 + (left.take k).countP isBracket
        _ = (left.take k).countP isBracket := Nat.zero_add _
        _ ≤ (lead ++ '(' :: left).countP isBracket := htake.countP_le
        _ < Word.signedBound32 := hfew
    have hcomma : hasTopLevelComma 0 (left.take k) = _ := hasTopLevelComma_eq hfewer
    change (slice (byteLength lead + 1) (byteLength lead + 1 + byteLength (left.take k)) _ >>= _) = _
    change slice (byteLength lead + 1) (byteLength lead + 1 + _) _ = _ at hslice
    rw [hslice]
    change (hasTopLevelComma 0 (left.take k) >>= _) = _
    rw [hcomma, Option.any_some, piecesOf]
    by_cases hparted : 1 < (piecesFrom 0 (left.take k)).length
    · rw [decide_eq_true hparted, decide_eq_false (by omega)]
      rfl
    · rw [decide_eq_false hparted, decide_eq_true (by omega)]
      change (placeAt _ (offsetAt _ i) >>= _) = _
      rw [placeAt_offsetAt]
      rfl

/-! ### Tags -/

lemma completes_openingTags (names : List (List Char)) (text : List Char) :
    Completes (openingTags names text) := by
  refine completes_filterMapM fun (i, name) _ => ?_
  dsimp only
  split
  · rename_i stop hstop
    exact (completes_slice_tagExtent hstop).bind fun tag _ => completes_ok _
  · exact completes_ok none

lemma completes_has {name : String} (h : name.toList ≠ []) (tag : List Char) :
    Completes (has tag name) :=
  completes_of_eq (findsAttribute_eq h tag)

lemma completes_placeAt (text : List Char) (offset : ℕ) : Completes (placeAt text offset) := by
  obtain ⟨column, hplace⟩ := exists_placeAt text offset
  exact completes_of_eq hplace

lemma completes_imageHit? (text : List Char) (start : ℕ) (name tag : List Char) :
    Completes (imageHit? text start name tag) := by
  refine (completes_has (by decide) tag).bind fun hasText _ => ?_
  split
  · exact completes_ok none
  · exact (completes_placeAt text start).bind fun place _ => completes_ok _

lemma keyHandlers_named : ∀ name ∈ keyHandlers, name.toList ≠ [] := by decide

lemma completes_clickHit? (text : List Char) (start : ℕ) (name tag : List Char) :
    Completes (clickHit? text start name tag) := by
  refine (completes_has (by decide) tag).bind fun clicks _ => ?_
  split
  · exact completes_ok none
  · refine (completes_anyM fun handler hmem =>
      completes_has (keyHandlers_named handler hmem) tag).bind fun answers _ => ?_
    split
    · exact completes_ok none
    · exact (completes_placeAt text start).bind fun place _ => completes_ok _

/-! ### Keys -/

lemma mapCall_suffix {before : Option Char} {rest left left' : List Char}
    (h : mapCall before rest = some (left, left')) : '(' :: left <:+ rest := by
  obtain ⟨l, hcall, heq⟩ := Option.map_eq_some_iff.mp h
  cases heq
  exact afterWordAndMark_suffix hcall

lemma completes_tagOfCall? {text left : List Char} (h : '(' :: left <:+ text) :
    Completes (tagOfCall? text left) := by
  obtain ⟨lead, rfl, hopening⟩ := exists_opening h
  obtain ⟨closing, hclosing⟩ := exists_closeOf (lead ++ '(' :: left) (byteLength lead)
  refine yields_bind_of_eq hopening (yields_bind_of_eq hclosing ?_)
  dsimp only
  split
  · exact completes_ok none
  · exact completes_ok _

lemma completes_tagHit? (text : List Char) (tag : GivenTag) : Completes (tagHit? text tag) := by
  refine (completes_placeAt text tag.start).bind fun place _ => ?_
  split
  · exact completes_ok _
  · split
    · exact completes_ok none
    · rename_i stop hstop
      refine (completes_slice_tagExtent hstop).bind fun written _ => ?_
      refine yields_bind_of_eq (findsAttribute_eq (by decide) written) ?_
      split
      · exact completes_ok none
      · exact completes_ok _

lemma completes_missingKeysOfCalls {text : List Char} {calls : List (List Char)}
    (h : ∀ left ∈ calls, '(' :: left <:+ text) (seen : List ℕ) :
    Completes (missingKeysOfCalls text seen calls) := by
  induction calls generalizing seen with
  | nil => exact completes_ok []
  | cons left calls ih =>
    have hmore := ih fun l hl => h l (List.mem_cons_of_mem left hl)
    refine (completes_tagOfCall? (h left List.mem_cons_self)).bind fun tag? _ => ?_
    split
    · exact hmore seen
    · rename_i tag
      split
      · exact hmore seen
      · exact (completes_tagHit? text tag).bind fun hit _ =>
          (hmore _).bind fun hits _ => completes_ok _

/-! ### Components -/

lemma completes_bodyStart (rest : List Char) : Completes (bodyStart rest) := by
  unfold bodyStart
  dsimp only
  split
  · exact completes_ok _
  · rename_i arrow harrow
    split
    · obtain ⟨lead, tail, rfl, rfl⟩ := exists_of_mem_offsetsOf (List.mem_of_head? harrow)
      have hbehind := sliceFrom_append (lead ++ "=>".toList) tail
      rw [List.append_assoc, byteLength_append] at hbehind
      refine yields_bind_of_eq hbehind ?_
      refine yields_bind_of_eq
        (minus_of_le (byteLength_le_of_suffix (skipBlanks_suffix tail))) ?_
      exact completes_ok _
    · exact completes_ok _

/-- A bracket that closes stands at an offset, and not before another one. -/
def ClosesFrom (text : List Char) (start stop : ℕ) : Prop :=
  start ≤ stop ∧ ∃ before c d behind, text = before ++ d :: behind ∧ byteLength before = stop ∧
    closerOf c = some d

lemma yields_bodyEnd (text : List Char) (start : ℕ) :
    Yields (bodyEnd text start) fun stop? => ∀ stop ∈ stop?, ClosesFrom text start stop := by
  unfold bodyEnd
  split
  · exact yields_ok nofun
  · refine (completes_bodyStart _).bind fun opening? _ => ?_
    split
    · rename_i opening
      obtain ⟨found, hfound⟩ := exists_closeOf text (start + opening)
      refine ⟨found, hfound, ?_⟩
      rintro stop rfl
      obtain ⟨hlt, hbracket⟩ := exists_of_closeOf hfound
      exact ⟨(Nat.le_add_right start opening).trans hlt.le, hbracket⟩
    · exact yields_ok nofun

lemma yields_componentEnd {text lead : List Char} {h : Header}
    (hopening : minus (offsetAt text (text.length - h.parameters.length)) 1 =
      .ok (byteLength lead)) :
    Yields (componentEnd text h) fun stop? =>
      ∀ stop ∈ stop?, ClosesFrom text (byteLength lead) stop := by
  refine yields_bind_of_eq hopening ?_
  obtain ⟨closing?, hclosing⟩ := exists_closeOf text (byteLength lead)
  refine yields_bind_of_eq hclosing ?_
  split
  · rename_i closing
    obtain ⟨stop?, hstop?, hends⟩ := yields_bodyEnd text (closing + 1)
    refine ⟨stop?, hstop?, fun stop hstop => ?_⟩
    obtain ⟨hle, hbracket⟩ := hends stop hstop
    exact ⟨(exists_of_closeOf hclosing).1.le.trans (Nat.le_of_succ_le hle), hbracket⟩
  · exact yields_ok nofun

lemma yields_componentEnd_of_mem {text : List Char} {i : ℕ} {h : Header}
    (hmem : (i, h) ∈ headers text) :
    Yields (componentEnd text h) fun stop? =>
      ∀ stop ∈ stop?, ClosesFrom text (offsetAt text (i + h.skipped)) stop := by
  obtain ⟨hsuffix, hlength⟩ := exists_of_mem_headers hmem
  obtain ⟨lead, htext, hopening⟩ := exists_opening hsuffix
  have hname : offsetAt text (i + h.skipped) ≤ byteLength lead := by
    rw [htext, List.length_append, List.length_cons] at hlength
    rw [htext, offsetAt, List.take_append_of_le_length (by omega)]
    exact byteLength_take_le lead _
  obtain ⟨stop?, hstop?, hends⟩ := yields_componentEnd hopening
  exact ⟨stop?, hstop?, fun stop hstop => ⟨hname.trans (hends stop hstop).1, (hends stop hstop).2⟩⟩

lemma ClosesFrom.line_lt {text : List Char} {start stop : ℕ} (h : ClosesFrom text start stop)
    (hlines : (lines text).length < Word.bound32) :
    lineOf (lineStarts text) stop + 1 < Word.bound32 := by
  obtain ⟨-, before, c, d, behind, rfl, rfl, hd⟩ := h
  obtain ⟨hbreak, hreturn⟩ : d ≠ '\n' ∧ d ≠ '\r' := by
    unfold closerOf at hd
    split at hd <;> cases hd <;> decide
  exact (Nat.succ_le_of_lt (lineOf_lt_of_mem_line hbreak hreturn)).trans_lt hlines

lemma completes_lengthHit? {text : List Char} {i : ℕ} {h : Header} (hmem : (i, h) ∈ headers text)
    (hlines : (lines text).length < Word.bound32) (budget : ℕ) :
    Completes (lengthHit? text budget i h) := by
  refine (yields_componentEnd_of_mem hmem).bind fun stop? hstop? => ?_
  split
  · exact completes_ok none
  · rename_i stop
    have hends := hstop? stop rfl
    obtain ⟨column, hfirst⟩ := exists_placeAt text (offsetAt text (i + h.skipped))
    obtain ⟨column', hlast⟩ := exists_placeAt text stop
    refine yields_bind_of_eq hfirst (yields_bind_of_eq hlast ?_)
    refine yields_bind_of_eq (minus_ordinal32 text hends.1 (hends.line_lt hlines)) ?_
    dsimp only
    split
    · exact completes_ok _
    · exact completes_ok none

/-! ### Checkers -/

/-- A checker comes back with hits, whatever it looks at. -/
def Steady (c : Checker) : Prop :=
  ∀ src : Source, byteLength src.masked < Word.signedBound32 → ∃ hs, c.check src = .hits hs

lemma exists_hits_of_completes {x : Checked (List Hit)} (h : Completes x) :
    ∃ hs, Outcome.ofChecked x = .hits hs := by
  obtain ⟨hs, rfl, -⟩ := h
  exact ⟨hs, rfl⟩

lemma steady_missingKey : Steady missingKey := by
  rintro ⟨path, content, masked, tree, options⟩ -
  cases tree with
  | some t => exact ⟨_, rfl⟩
  | none =>
    refine exists_hits_of_completes (completes_missingKeysOfCalls (fun left hleft => ?_) [])
    obtain ⟨⟨i, l⟩, hmem, rfl⟩ := List.mem_map.mp hleft
    exact suffix_of_mem_occurrences ('(' :: ·) (fun _ _ _ _ => mapCall_suffix) hmem

lemma steady_looseEquality : Steady looseEquality :=
  fun src _ => ⟨_, LooseComparisons.check_eq src⟩

lemma steady_conditionalHook : Steady conditionalHook := by
  intro src _
  cases htree : src.tree with
  | some t => exact ⟨conditionalHooksInTree t, by simp only [conditionalHook, htree]⟩
  | none => exact ⟨_, ConditionalCalls.check_eq src htree⟩

lemma steady_missingDependencies : Steady missingDependencies := by
  intro src hshort
  have hfew : src.masked.countP isBracket < Word.signedBound32 :=
    calc src.masked.countP isBracket
      _ ≤ src.masked.length := List.countP_le_length
      _ ≤ byteLength src.masked := length_le_byteLength _
      _ < Word.signedBound32 := hshort
  refine exists_hits_of_completes (completes_filterMapM fun (i, name, left) hmem => ?_)
  have hleft : '(' :: left <:+ src.masked :=
    suffix_of_mem_occurrences (fun call => '(' :: call.2)
      (fun _ _ _ _ => watchingCall_suffix) hmem
  exact completes_of_eq (watchingHit?_eq hleft hfew i name)

lemma steady_imageAlt : Steady imageAlt := by
  intro src _
  refine exists_hits_of_completes ((completes_openingTags _ _).bind fun tags _ => ?_)
  exact completes_filterMapM fun (start, name, tag) _ => completes_imageHit? _ start name tag

lemma steady_clickKeyboard : Steady clickKeyboard := by
  intro src _
  refine exists_hits_of_completes ((completes_openingTags _ _).bind fun tags _ => ?_)
  exact completes_filterMapM fun (start, name, tag) _ => completes_clickHit? _ start name tag

lemma steady_largeComponent : Steady largeComponent := by
  intro src hshort
  have hlines : (lines src.masked).length < Word.bound32 :=
    calc (lines src.masked).length
      _ ≤ (pieces src.masked).length := length_linesOfPieces_le _
      _ ≤ byteLength src.masked + 1 := length_pieces_le_byteLength _
      _ < Word.bound32 := by unfold Word.signedBound32 at hshort; unfold Word.bound32; omega
  refine exists_hits_of_completes (Yields.bind (completes_filterMapM ?_) fun hs _ =>
    completes_ok (hs.mergeSort Hit.placeLe))
  exact fun (i, h) hmem => completes_lengthHit? hmem hlines _

/-- The other checkers cut nothing and count nothing that could be too small or too large. -/
lemma steady_builtin : ∀ c ∈ builtin, Steady c := by
  simp only [builtin, List.forall_mem_cons]
  exact ⟨steady_missingKey, steady_looseEquality, steady_conditionalHook,
    steady_missingDependencies, fun _ _ => ⟨_, rfl⟩, fun _ _ => ⟨_, rfl⟩, fun _ _ => ⟨_, rfl⟩,
    steady_imageAlt, steady_clickKeyboard, fun _ _ => ⟨_, rfl⟩, steady_largeComponent,
    fun _ _ => ⟨_, rfl⟩, fun _ _ => ⟨_, rfl⟩, nofun⟩

/-! ### Files -/

lemma exists_of_mem_treeFaults {config : Rule.Config} {path : Path} {content : String}
    {cs : List Checker} {d : Diagnostic} (h : d ∈ treeFaults config path content cs) :
    ∃ e : Script.SyntaxError, d.message = e.message ++ "; falling back to text heuristics" := by
  unfold treeFaults at h
  split at h
  · cases h
  · unfold treeOfFile at h
    split at h
    · cases h
    · split at h
      · cases h
      · rename_i e _
        rw [List.mem_singleton] at h
        subst h
        exact ⟨e, rfl⟩

lemma message_ne_of_mem_treeFaults {config : Rule.Config} {path : Path} {content : String}
    {cs : List Checker} {d : Diagnostic} (h : d ∈ treeFaults config path content cs)
    (reason : String) :
    d.message ≠ "rule failed: " ++ reason ∧ d.message ≠ "rule panicked: " ++ reason := by
  obtain ⟨e, he⟩ := exists_of_mem_treeFaults h
  have hsyntax : ∀ a b : String,
      ("syntax error near line " ++ a ++ b).toList.head? = some 's' := by simp
  have hhead : d.message.toList.head? = some 's' := by
    rw [he]
    exact hsyntax _ _
  constructor
  · intro heq
    rw [heq, String.toList_append] at hhead
    cases hhead
  · intro heq
    rw [heq, String.toList_append] at hhead
    cases hhead

/-- **No checker fails** on a text of less than two gigabytes, whatever its characters and however
it breaks off, under any path and with any options, with a syntax tree or without one. So no file
leaves a diagnostic that a rule failed or panicked. -/
theorem builtin_completes :
    (∀ (path : Path) (content : List Char) (tree : Option Script.Tree) (options : Rule.Options),
      byteLength content < 2 ^ 31 →
        ∀ c ∈ builtin, ∃ hs, c.check ⟨path, content, mask content, tree, options⟩ = .hits hs) ∧
    ∀ (config : Rule.Config) (path : Path) (content : String),
      byteLength content.toList < 2 ^ 31 →
        ∀ d ∈ (evaluateFile builtin config path content).diagnostics,
          d.ruleId = none ∧ ∀ reason,
            d.message ≠ "rule failed: " ++ reason ∧ d.message ≠ "rule panicked: " ++ reason := by
  have hchecks : ∀ (path : Path) (content : List Char) (tree : Option Script.Tree)
      (options : Rule.Options), byteLength content < 2 ^ 31 → ∀ c ∈ builtin,
        ∃ hs, c.check ⟨path, content, mask content, tree, options⟩ = .hits hs :=
    fun path content tree options h c hc =>
      steady_builtin c hc _ ((byteLength_mask_le content).trans_lt h)
  refine ⟨hchecks, fun config path content h d hd => ?_⟩
  rw [evaluateFile_eq] at hd
  rcases List.mem_append.mp hd with hd | hd
  · exact ⟨(of_mem_treeFaults hd).2, message_ne_of_mem_treeFaults hd⟩
  · obtain ⟨c, hc, hd⟩ := List.mem_flatMap.mp hd
    obtain ⟨hs, hhits⟩ := hchecks path content.toList (treeOfFile path content.toList).1
      (config.optionsFor c.ruleId) h c (mem_activeCheckers config path |>.mp hc).1
    rw [faultsAt_of_hits hhits] at hd
    cases hd

/-- A script that breaks off in the middle of everything, with characters of two and of three
bytes. -/
def brokenOff : String :=
  "const Ü = (é) => \x7b\n  useEffect(() => [é, →], \x7b[\n  <img title=→ é=\x7b[ alt\n  if (é != nul"

theorem builtin_completes_brokenOff :
    byteLength brokenOff.toList < 2 ^ 31 ∧
    (∀ c ∈ builtin, ∃ hs, c.check ⟨⟨"App.tsx"⟩, brokenOff.toList, mask brokenOff.toList, none,
      .empty⟩ = .hits hs) ∧
    ∀ d ∈ (evaluateFile builtin (Rule.resolve "strict" default).1 ⟨"App.tsx"⟩
      brokenOff).diagnostics, d.ruleId = none := by
  have hshort : byteLength brokenOff.toList < 2 ^ 31 := by decide
  obtain ⟨hchecks, hfiles⟩ := builtin_completes
  exact ⟨hshort, hchecks ⟨"App.tsx"⟩ _ none .empty hshort,
    fun d hd => (hfiles _ _ _ hshort d hd).1⟩

end CodeHealth.Proofs.SteadyCheckers
