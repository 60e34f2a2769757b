import CodeHealth.Proofs.StableSort
import CodeHealth.Proofs.SteadyCheckers
import Mathlib.Algebra.Group.Int.Defs

/-!
The budget of components, in lines.

A component whose body ends is reported if and only if it is longer than the budget, and the reports
are those of the components over the budget in the order of their places. The budget is the option,
but at least one, as it fits 32 bits without a sign; so a larger option never adds a report as long
as it fits, and one that does not fit counts as what is left of it: four gigalines are read as none.
-/

namespace CodeHealth.Proofs.LengthBudget

open CodeHealth.Check CodeHealth.Text
open CodeHealth.Proofs.Completion CodeHealth.Proofs.HeaderReading CodeHealth.Proofs.LinePlaces
open CodeHealth.Proofs.StableSort CodeHealth.Proofs.SteadyCheckers CodeHealth.Proofs.TextLines

/-! ### Components -/

/-- A component whose body ends: its name, where the name stands, and the line of the bracket that
closes the body. -/
structure Component where
  name : List Char
  place : Position
  lastLine : ℕ
deriving DecidableEq

/-- The number of lines from that of the name to that of the closing bracket. -/
def Component.length (c : Component) : ℕ := c.lastLine - c.place.line + 1

/-- Whether a component may be told before another. -/
def Component.placeLe (a b : Component) : Bool :=
  a.place.line < b.place.line ||
    (a.place.line == b.place.line && a.place.column ≤ b.place.column)

/-- The line of the character at a byte offset. -/
def lineAt (text : List Char) (offset : ℕ) : ℕ :=
  ((splitAtByte offset text).elim Position.start fun cut => .after cut.1).line

/-- The component with a header at an index, if its body ends. -/
def component? (text : List Char) (found : ℕ × Header) : Option Component :=
  match componentEnd text found.2 with
  | .ok (some stop) =>
    some ⟨found.2.name, (Position.ofIndex text (found.1 + found.2.skipped)).narrow,
      lineAt text stop⟩
  | _ => none

/-- The components of a text whose bodies end, by their places. -/
def components (text : List Char) : List Component :=
  ((headers text).filterMap (component? text)).mergeSort Component.placeLe

/-- What is told about a component that is over a budget. -/
def overlong (budget : ℕ) (c : Component) : Hit :=
  .at c.place
    ("Component `" ++ String.ofList c.name ++ "` is " ++ toString c.length ++
      " lines long (limit " ++ toString budget ++ ")")
    "Split it into smaller components or extract logic into custom hooks"

/-- The reports of the components of a text that are over a budget. -/
def reports (budget : ℕ) (text : List Char) : List Hit :=
  ((components text).filter fun c => budget < c.length).map (overlong budget)

/-! ### Budgets -/

/-- The number of lines that an option allows: at least one. -/
def allowance (n : ℤ) : ℕ := (max n 1).toNat

/-- The number of lines that is read from an option: what of the allowance fits 32 bits. -/
def narrowed (n : ℤ) : ℕ := allowance n % 2 ^ 32

lemma lineBudget_eq {o : Rule.Options} {n : ℤ} (h : o.get? "max_lines" = some (.integer n)) :
    lineBudget o = narrowed n := by
  rw [lineBudget, Rule.Options.intOr, h]
  rfl

lemma narrowed_of_lt {n : ℤ} (h : n < 2 ^ 32) : narrowed n = allowance n := by
  have hlt : allowance n < 2 ^ 32 := by
    unfold allowance
    omega
  exact Nat.mod_eq_of_lt hlt

lemma allowance_mono {m n : ℤ} (h : m ≤ n) : allowance m ≤ allowance n := by
  unfold allowance
  omega

/-! ### Checks -/

lemma lineAt_byteLength (before behind : List Char) :
    lineAt (before ++ behind) (byteLength before) =
      lineOf (lineStarts (before ++ behind)) (byteLength before) + 1 := by
  obtain ⟨lead, rest, h⟩ := exists_holdsOffset (before ++ behind) (byteLength before)
  obtain ⟨inLine, hbefore, -, hunbroken⟩ := h.exists_inLine
  rw [lineAt, splitAtByte_byteLength]
  exact congrArg Position.line (h.after_append hunbroken hbefore)

lemma line_narrow_ofIndex (text : List Char) (i : ℕ) :
    (Position.ofIndex text i).narrow.line =
      Word.ordinal32 (lineOf (lineStarts text) (offsetAt text i)) := by
  obtain ⟨column, hplace⟩ := exists_placeAt text (offsetAt text i)
  rw [placeAt_offsetAt] at hplace
  exact congrArg Position.line (Except.ok.inj hplace)

/-- A component is told exactly if it is longer than the budget. -/
lemma lengthHit?_eq {text : List Char} {i : ℕ} {h : Header} (hmem : (i, h) ∈ headers text)
    (hlines : (lines text).length < Word.bound32) (budget : ℕ) :
    lengthHit? text budget i h =
      .ok (((component? text (i, h)).filter fun c => budget < c.length).map (overlong budget)) := by
  obtain ⟨stop?, hend, hcloses⟩ := yields_componentEnd_of_mem hmem
  cases stop? with
  | none =>
    rw [lengthHit?, component?, hend]
    rfl
  | some stop =>
    have hstop := hcloses stop rfl
    have hfit := hstop.line_lt hlines
    have hmono := lineOf_mono text hstop.1
    have hfirst := line_narrow_ofIndex text (i + h.skipped)
    obtain ⟨column, hlast⟩ := exists_placeAt text stop
    have hlastLine : lineAt text stop = lineOf (lineStarts text) stop + 1 := by
      obtain ⟨-, before, c, d, behind, rfl, rfl, -⟩ := hstop
      exact lineAt_byteLength before _
    -- the lines are counted as they are told, since the numbers of both of them fit
    have hminus := minus_ordinal32 text hstop.1 hfit
    rw [← hfirst] at hminus
    rw [Word.ordinal32_of_lt (by omega)] at hfirst
    have hlength : Component.length ⟨h.name, (Position.ofIndex text (i + h.skipped)).narrow,
        lineAt text stop⟩ = Word.ordinal32 (lineOf (lineStarts text) stop -
          lineOf (lineStarts text) (offsetAt text (i + h.skipped))) := by
      rw [Component.length, hfirst, hlastLine, Nat.add_sub_add_right,
        Word.ordinal32_of_lt (by omega)]
    rw [lengthHit?, component?, hend]
    change (placeAt text _ >>= _) = _
    rw [placeAt_offsetAt]
    change (placeAt text _ >>= _) = _
    rw [hlast]
    change (minus _ _ >>= _) = _
    rw [hminus, Option.filter_some, apply_ite (Option.map _), apply_ite Except.ok]
    simp only [decide_eq_true_eq, Option.map_some, overlong, hlength]
    rfl

lemma placeLe_overlong (budget : ℕ) (a b : Component) :
    (overlong budget a).placeLe (overlong budget b) = a.placeLe b := rfl

lemma placeLe_iff (a b : Component) : a.placeLe b = true ↔
    a.place.line < b.place.line ∨ a.place.line = b.place.line ∧ a.place.column ≤ b.place.column := by
  simp [Component.placeLe]

lemma placeLe_trans (a b c : Component) (hab : a.placeLe b = true) (hbc : b.placeLe c = true) :
    a.placeLe c = true := by
  rw [placeLe_iff] at *
  omega

lemma placeLe_total (a b : Component) : (a.placeLe b || b.placeLe a) = true := by
  rw [Bool.or_eq_true, placeLe_iff, placeLe_iff]
  omega

/-- **The checker tells exactly the components over the budget**, by their places. -/
lemma check_eq (src : Source) (hlines : (lines src.masked).length < Word.bound32) :
    largeComponent.check src = .hits (reports (lineBudget src.options) src.masked) := by
  generalize hbudget : lineBudget src.options = budget
  have hfound : (headers src.masked).filterMapM
      (fun o => lengthHit? src.masked (lineBudget src.options) o.1 o.2) =
      .ok ((((headers src.masked).filterMap (component? src.masked)).filter
        fun c => budget < c.length).map (overlong budget)) := by
    rw [hbudget, List.filter_filterMap, List.map_filterMap]
    exact filterMapM_eq fun o hmem => lengthHit?_eq hmem hlines budget
  change Outcome.ofChecked ((headers src.masked).filterMapM
    (fun o => lengthHit? src.masked (lineBudget src.options) o.1 o.2) >>= _) = _
  rw [hfound]
  change Outcome.hits (List.mergeSort _ _) = _
  rw [reports, components, filter_mergeSort placeLe_trans placeLe_total,
    List.map_mergeSort fun a _ b _ => (placeLe_overlong budget a b).symm]

lemma pairwise_reports (budget : ℕ) (text : List Char) :
    (reports budget text).Pairwise fun a b => a.placeLe b = true := by
  have hsorted := List.pairwise_mergeSort placeLe_trans placeLe_total
    ((headers text).filterMap (component? text))
  exact List.pairwise_map.mpr (hsorted.sublist List.filter_sublist)

/-! ### Lengths -/

lemma length_le_of_mem {text : List Char} (hlines : (lines text).length < Word.bound32)
    {c : Component} (h : c ∈ components text) : c.length ≤ Word.bound32 := by
  obtain ⟨⟨i, header⟩, hmem, hc⟩ := List.mem_filterMap.mp (List.mem_mergeSort.mp h)
  obtain ⟨stop?, hend, hcloses⟩ := yields_componentEnd_of_mem hmem
  cases stop? with
  | none =>
    rw [component?, hend] at hc
    cases hc
  | some stop =>
    rw [component?, hend] at hc
    cases hc
    have hfit := (hcloses stop rfl).line_lt hlines
    obtain ⟨-, before, c, d, behind, rfl, rfl, -⟩ := hcloses stop rfl
    rw [Component.length, lineAt_byteLength]
    dsimp only
    omega

lemma reports_eq_nil_iff {budget : ℕ} {text : List Char} :
    reports budget text = [] ↔ ∀ c ∈ components text, c.length ≤ budget := by
  simp [reports]

/-! ### Options -/

lemma reports_allowance_of_le {n : ℤ} {text : List Char} (hlines : (lines text).length < 2 ^ 32)
    (hlarge : 2 ^ 32 ≤ n) : reports (allowance n) text = [] := by
  have hallowance : 2 ^ 32 ≤ allowance n := by
    unfold allowance
    omega
  exact reports_eq_nil_iff.mpr fun c hc => (length_le_of_mem hlines hc).trans hallowance

def placeOf (h : Hit) : ℕ × ℕ := (h.line, h.column)

lemma places_reports_sublist {a b : ℕ} (h : a ≤ b) (text : List Char) :
    ((reports b text).map placeOf).Sublist ((reports a text).map placeOf) := by
  have hplaces (budget : ℕ) : (reports budget text).map placeOf =
      ((components text).filter fun c => budget < c.length).map
        fun c => (c.place.line, c.place.column) := List.map_map
  rw [hplaces, hplaces]
  refine List.Sublist.map _ (List.monotone_filter_right _ fun c hc => ?_)
  rw [decide_eq_true_eq] at hc ⊢
  exact h.trans_lt hc

/-- **Components over the budget.** With the option `max_lines`, the checker tells exactly the
components whose length is over the narrowed option, sorted by their places. These are the
components over the option, but at least over one line, if and only if the option fits 32 bits or no
component is over what is left of it; and among options that fit, a larger one never adds a
report. -/
theorem check_reports (src : Source) (n : ℤ)
    (hoption : src.options.get? "max_lines" = some (.integer n))
    (hlines : (lines src.masked).length < 2 ^ 32) :
    largeComponent.check src = .hits (reports (narrowed n) src.masked) ∧
    (reports (narrowed n) src.masked).Pairwise (fun a b => a.placeLe b = true) ∧
    (largeComponent.check src = .hits (reports (allowance n) src.masked) ↔
      n < 2 ^ 32 ∨ ∀ c ∈ components src.masked, c.length ≤ narrowed n) ∧
    ∀ (options : Rule.Options) (m : ℤ), options.get? "max_lines" = some (.integer m) →
      n ≤ m → m < 2 ^ 32 →
        ∃ hs, largeComponent.check { src with options } = .hits hs ∧
          (hs.map placeOf).Sublist ((reports (narrowed n) src.masked).map placeOf) := by
  have hcheck : largeComponent.check src = .hits (reports (narrowed n) src.masked) := by
    rw [check_eq _ hlines, lineBudget_eq hoption]
  refine ⟨hcheck, pairwise_reports _ _, ?_, fun options m hm hnm hfits => ?_⟩
  · rw [hcheck, Outcome.hits.injEq]
    rcases lt_or_ge n (2 ^ 32) with hfits | hlarge
    · simp only [narrowed_of_lt hfits, hfits, true_or]
    · rw [reports_allowance_of_le hlines hlarge, reports_eq_nil_iff, or_iff_right hlarge.not_gt]
  · refine ⟨reports (narrowed m) src.masked, ?_, places_reports_sublist ?_ _⟩
    · rw [check_eq { src with options } hlines, lineBudget_eq hm]
    · rw [narrowed_of_lt hfits, narrowed_of_lt (hnm.trans_lt hfits)]
      exact allowance_mono hnm

/-- A file with a component of three lines, and an option. -/
def shortComponent (n : ℤ) : Source where
  path := ⟨"App.tsx"⟩
  content := "function App() \x7b\n  return null;\n\x7d\n".toList
  masked := mask "function App() \x7b\n  return null;\n\x7d\n".toList
  tree := none
  options := KeyMap.empty.insert "max_lines" (.integer n)

lemma get?_shortComponent (n : ℤ) :
    (shortComponent n).options.get? "max_lines" = some (.integer n) := by
  rw [shortComponent, KeyMap.get?_insert, if_pos rfl]

lemma length_shortComponent (n : ℤ) : (lines (shortComponent n).masked).length < 2 ^ 32 := by
  have hlines : (lines (shortComponent n).masked).length = 3 := by
    change (lines (mask _)).length = 3
    decide
  rw [hlines]
  decide

lemma reports_shortComponent (budget : ℕ) (n : ℤ) :
    reports budget (shortComponent n).masked =
      if budget < 3 then [overlong budget ⟨"App".toList, ⟨1, 10⟩, 3⟩] else [] := by
  have hfound : (headers (shortComponent n).masked).filterMap
      (component? (shortComponent n).masked) = [⟨"App".toList, ⟨1, 10⟩, 3⟩] := by
    change (headers (mask _)).filterMap (component? (mask _)) = _
    decide +kernel
  rw [reports, components, hfound, List.mergeSort_singleton, List.filter_cons, List.filter_nil]
  change List.map _ (if decide (budget < 3) = true then _ else _) = _
  simp only [decide_eq_true_eq]
  split <;> rfl

theorem check_reports_shortComponent :
    (shortComponent 2).options.get? "max_lines" = some (.integer 2) ∧
    (lines (shortComponent 2).masked).length < 2 ^ 32 ∧
    largeComponent.check (shortComponent 2) =
      .hits [overlong 2 ⟨"App".toList, ⟨1, 10⟩, 3⟩] := by
  have hoption := get?_shortComponent 2
  have hlines := length_shortComponent 2
  exact ⟨hoption, hlines, by
    rw [(check_reports _ _ hoption hlines).1, reports_shortComponent]
    decide⟩

/-- An option of four gigalines is read as none at all, so that a component of three lines is told,
which it is not with one line less. -/
theorem check_exceeds_allowance :
    largeComponent.check (shortComponent (2 ^ 32)) =
      .hits [overlong 0 ⟨"App".toList, ⟨1, 10⟩, 3⟩] ∧
    reports (allowance (2 ^ 32)) (shortComponent (2 ^ 32)).masked = [] ∧
    largeComponent.check (shortComponent (2 ^ 32 - 1)) = .hits [] := by
  refine ⟨?_, ?_, ?_⟩
  · rw [check_eq _ (length_shortComponent _), lineBudget_eq (get?_shortComponent _), reports_shortComponent]
    decide
  · rw [reports_shortComponent]
    decide
  · rw [check_eq _ (length_shortComponent _), lineBudget_eq (get?_shortComponent _), reports_shortComponent]
    decide

end CodeHealth.Proofs.LengthBudget
