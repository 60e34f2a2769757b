import CodeHealth.Check.Basic
import CodeHealth.Proofs.TextLines
import Mathlib.Data.List.Flatten
import Mathlib.Data.List.Range

/-!
Hits that are told line by line.

Lines come in the order of their numbers, so what is told in order within each line is told in order
in the whole text, and no place is told twice. Here the numbers are counted without a bound, and what
is told is what of them fits 32 bits; where the places of a text fit, that is the same.
-/

namespace CodeHealth.Check.Hit

def place (h : Hit) : Text.Position := ⟨h.line, h.column⟩

/-- A hit as it is told: what of its place fits 32 bits. -/
def narrow (h : Hit) : Hit := .mk h.place.narrow.line h.place.narrow.column h.message h.suggestion

end CodeHealth.Check.Hit

namespace CodeHealth.Proofs.LineHits

open CodeHealth.Check CodeHealth.Text CodeHealth.Proofs.TextLines

/-! ### Hits as they are told -/

lemma narrow_of_fits {h : Hit} (hfit : h.place.Fits) : h.narrow = h := by
  rw [Hit.narrow, hfit.narrow_eq]
  rfl

lemma map_narrow_of_fits {hs : List Hit} (hfit : ∀ h ∈ hs, h.place.Fits) :
    hs.map Hit.narrow = hs :=
  (List.map_congr_left fun h hh => narrow_of_fits (hfit h hh)).trans (List.map_id hs)

lemma columnAt_offsetAt {line : List Char} {i : ℕ} (hi : i ≤ line.length) :
    columnAt line (offsetAt line i) = (i + 1) % Word.bound32 := by
  rw [offsetAt, columnAt_take, List.length_take, Nat.min_eq_left hi, Word.ordinal32_eq]

/-! ### The order of hits -/

def Before (h h' : Hit) : Prop := Precedes h.place h'.place

instance : Std.Irrefl Before := ⟨fun _ h => h.ne rfl⟩

instance : Std.Antisymm Before := ⟨fun _ _ h h' => absurd rfl (h.trans h').ne⟩

lemma pairwise_countedLines (text : List Char) :
    (countedLines text).Pairwise fun a b => a.1 < b.1 := by
  have hfst : (countedLines text).map Prod.fst = List.range' 1 (lines text).length := by
    simp [countedLines, Function.comp_def]
  rw [← List.pairwise_map (R := (· < ·)), hfst]
  exact List.pairwise_lt_range'

/-! ### Chosen indices of lines -/

lemma filterMap_ite {α β : Type} (p : α → Bool) (f : α → β) (as : List α) :
    as.filterMap (fun a => if p a then some (f a) else none) = (as.filter p).map f := by
  induction as with
  | nil => rfl
  | cons a as ih => cases hp : p a <;> simp [hp, ih]

section LineHits

variable (chosen : List Char → ℕ → Bool) (advice : List Char → ℕ → String × String)

/-- The hits at chosen indices of the lines of a text, from left to right, with what is told about
each. -/
def lineHits (text : List Char) : List Hit :=
  (countedLines text).flatMap fun (n, l) =>
    ((List.range l.length).filter (chosen l)).map fun i =>
      .at ⟨n, i + 1⟩ (advice l i).1 (advice l i).2

/-- The hits at chosen indices of a line, as they are told. -/
def toldIn (n : ℕ) (l : List Char) : List Hit :=
  ((List.range l.length).filter (chosen l)).map fun i =>
    .at ⟨n, columnAt l (offsetAt l i)⟩ (advice l i).1 (advice l i).2

lemma flatMap_toldIn (text : List Char) :
    ((numberedLines text).flatMap fun (n, l) => toldIn chosen advice n l) =
      (lineHits chosen advice text).map Hit.narrow := by
  rw [numberedLines_eq, List.flatMap_map, lineHits, List.map_flatMap]
  refine List.flatMap_congr fun (n, l) _ => ?_
  change toldIn chosen advice (n % Word.bound32) l = _
  rw [toldIn, List.map_map]
  refine List.map_congr_left fun i hi => ?_
  rw [columnAt_offsetAt (List.mem_range.mp (List.mem_of_mem_filter hi)).le]
  rfl

variable {chosen advice}

lemma hitsByLine_eq {α : Type} {r : Recogniser α} {hit : ℕ → List Char → ℕ → α → Option Hit}
    (h : ∀ n l, (occurrences r l).filterMap (fun o => hit n l o.1 o.2) = toldIn chosen advice n l)
    (text : List Char) : hitsByLine r text hit = (lineHits chosen advice text).map Hit.narrow := by
  rw [← flatMap_toldIn]
  exact List.flatMap_congr fun numbered _ => h numbered.1 numbered.2

variable {text : List Char}

lemma mem_lineHits {h : Hit} :
    h ∈ lineHits chosen advice text ↔ ∃ n l i, (n, l) ∈ countedLines text ∧ i < l.length ∧
      chosen l i = true ∧ .at ⟨n, i + 1⟩ (advice l i).1 (advice l i).2 = h := by
  simp [lineHits, and_assoc]

lemma pairwise_lineHits (text : List Char) : (lineHits chosen advice text).Pairwise Before := by
  rw [lineHits, List.pairwise_flatMap]
  refine ⟨fun (n, l) _ => ?_, (pairwise_countedLines text).imp fun hlt h hh h' hh' => ?_⟩
  · rw [List.pairwise_map]
    exact (List.pairwise_lt_range.filter _).imp fun hij => .inr ⟨rfl, Nat.succ_lt_succ hij⟩
  · obtain ⟨i, -, rfl⟩ := List.mem_map.mp hh
    obtain ⟨j, -, rfl⟩ := List.mem_map.mp hh'
    exact .inl hlt

/-- Where the places of a text fit, they are told as they are counted. -/
lemma map_narrow_lineHits (hfit : PlacesFit text) :
    (lineHits chosen advice text).map Hit.narrow = lineHits chosen advice text := by
  refine map_narrow_of_fits fun h hh => ?_
  obtain ⟨n, l, i, hmem, hi, -, rfl⟩ := mem_lineHits.mp hh
  obtain ⟨lead, tail, hat⟩ := exists_isLineAt hmem
  exact hfit.fits hat hi.le

lemma lineHits_sublist {chosen' : List Char → ℕ → Bool}
    (h : ∀ l i, chosen l i = true → chosen' l i = true) (text : List Char) :
    (lineHits chosen advice text).Sublist (lineHits chosen' advice text) :=
  List.Sublist.flatMap_right _ fun numbered _ =>
    (List.monotone_filter_right _ (h numbered.2)).map _

end LineHits

end CodeHealth.Proofs.LineHits
