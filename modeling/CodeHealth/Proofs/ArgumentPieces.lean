import CodeHealth.Check.Hook
import CodeHealth.Proofs.BracketCounts
import Mathlib.Algebra.Order.Ring.Int
import Mathlib.Data.List.Infix

/-!
The arguments of a call, and the brackets around them.

Where the brackets of the arguments close by their kinds, it makes no difference that the end of the
arguments is found by the round brackets alone, and the commas between them by brackets of any kind.
-/

namespace CodeHealth.Proofs.ArgumentPieces

open CodeHealth.Check CodeHealth.Text CodeHealth.Proofs.BracketCounts

/-! ### Pieces -/

/-- Whether a character is a bracket of any kind. -/
def isBracket (c : Char) : Bool := "()[]\x7b\x7d".toList.contains c

/-- By how much what follows a character is nested deeper. -/
def nesting (c : Char) : ℤ :=
  if c = '(' ∨ c = '[' ∨ c = '\x7b' then 1
  else if c = ')' ∨ c = ']' ∨ c = '\x7d' then -1
  else 0

/-- The pieces of a text between its commas at the nesting depth zero, where the text starts at a
given depth. -/
def piecesFrom : ℤ → List Char → List (List Char)
  | _, [] => [[]]
  | depth, c :: cs =>
    if c = ',' ∧ depth = 0 then [] :: piecesFrom 0 cs
    else (piecesFrom (depth + nesting c) cs).modifyHead (c :: ·)

/-- The pieces of what stands between the brackets of a call. -/
def piecesOf (args : List Char) : List (List Char) := piecesFrom 0 args

/-- Whether the last piece holds nothing, as it does behind a comma after the last argument. -/
def endsBlank (args : List Char) : Bool := (piecesOf args).getLast?.any isBlankText

/-- The arguments of a call. A comma behind the last of them adds none. -/
def argumentsOf (args : List Char) : List (List Char) :=
  if endsBlank args then (piecesOf args).dropLast else piecesOf args

example : argumentsOf "f(a, b), [a, b],\n".toList = ["f(a, b)".toList, " [a, b]".toList] := by
  decide

lemma piecesFrom_ne_nil (depth : ℤ) (cs : List Char) : piecesFrom depth cs ≠ [] := by
  induction cs generalizing depth with
  | nil => exact List.cons_ne_nil _ _
  | cons c cs ih =>
    rw [piecesFrom]
    split_ifs
    · exact List.cons_ne_nil _ _
    · exact fun h => ih _ (List.modifyHead_eq_nil_iff.mp h)

lemma length_piecesFrom_pos (depth : ℤ) (cs : List Char) : 0 < (piecesFrom depth cs).length :=
  List.length_pos_of_ne_nil (piecesFrom_ne_nil depth cs)

/-- That a comma behind the last argument adds none matters only behind a lone argument. -/
lemma length_argumentsOf (args : List Char) :
    ((piecesOf args).length < 2 ↔ (argumentsOf args).length < 2) ↔
      ¬ ((piecesOf args).length = 2 ∧ endsBlank args = true) := by
  have hpos : 0 < (piecesOf args).length := length_piecesFrom_pos 0 args
  rw [argumentsOf]
  split_ifs with hblank
  · rw [List.length_dropLast]
    simp only [hblank, and_true]
    omega
  · simp [hblank]

/-! ### Commas -/

lemma signed32_eq {n : ℤ} (h : n.natAbs < Word.signedBound32) : signed32 n = .ok n := by
  refine if_pos ?_
  omega

lemma natAbs_add_nesting_le (depth : ℤ) (c : Char) (cs : List Char) :
    (depth + nesting c).natAbs + cs.countP isBracket ≤
      depth.natAbs + (c :: cs).countP isBracket := by
  have hone (hc : isBracket c = true) : (c :: cs).countP isBracket = cs.countP isBracket + 1 :=
    List.countP_cons_of_pos hc
  have hle : cs.countP isBracket ≤ (c :: cs).countP isBracket :=
    (List.sublist_cons_self c cs).countP_le
  unfold nesting
  split_ifs with hopener hcloser
  · have hc := hone (by rcases hopener with rfl | rfl | rfl <;> rfl)
    omega
  · have hc := hone (by rcases hcloser with rfl | rfl | rfl <;> rfl)
    omega
  · omega

/-- In a text with few enough brackets a comma is found exactly if it parts pieces. -/
lemma hasTopLevelComma_eq {depth : ℤ} {cs : List Char}
    (h : depth.natAbs + cs.countP isBracket < Word.signedBound32) :
    hasTopLevelComma depth cs = .ok (decide (1 < (piecesFrom depth cs).length)) := by
  induction cs generalizing depth with
  | nil => rfl
  | cons c cs ih =>
    have hfew := (natAbs_add_nesting_le depth c cs).trans_lt h
    have hmore := ih hfew
    have hstep := signed32_eq (Nat.lt_of_add_right_lt hfew)
    rw [hasTopLevelComma, piecesFrom]
    by_cases hcomma : c = ',' ∧ depth = 0
    · obtain ⟨rfl, rfl⟩ := hcomma
      have hmany : 1 < ([] :: piecesFrom 0 cs).length :=
        Nat.succ_lt_succ (length_piecesFrom_pos 0 cs)
      rw [if_neg (by decide), if_neg (by decide), if_pos ⟨rfl, rfl⟩, if_pos ⟨rfl, rfl⟩,
        decide_eq_true hmany]
      rfl
    · rw [if_neg hcomma, if_neg hcomma, List.length_modifyHead, ← hmore]
      unfold nesting at hstep ⊢
      split_ifs at hstep ⊢ with hopener hcloser
      · rw [hstep]
        rfl
      · rw [← sub_eq_add_neg] at hstep ⊢
        rw [hstep]
        rfl
      · rw [add_zero]

/-! ### Brackets -/

/-- A text whose brackets close in turn, each by one of its kind. -/
inductive Balanced : List Char → Prop
  | nil : Balanced []
  | plain {c : Char} {cs : List Char} : isBracket c = false → Balanced cs → Balanced (c :: cs)
  | group {opener closer : Char} {inner rest : List Char} : closerOf opener = some closer →
      Balanced inner → Balanced rest → Balanced (opener :: (inner ++ closer :: rest))

lemma balanced_of_plain {cs : List Char} (h : cs.any isBracket = false) : Balanced cs := by
  induction cs with
  | nil => exact .nil
  | cons c cs ih =>
    rw [List.any_cons, Bool.or_eq_false_iff] at h
    exact .plain h.1 (ih h.2)

lemma Balanced.append {a b : List Char} (ha : Balanced a) (hb : Balanced b) :
    Balanced (a ++ b) := by
  induction ha with
  | nil => exact hb
  | plain hc _ ih => exact .plain hc ih
  | group hcloser hinner _ _ ih =>
    rw [List.cons_append, List.append_assoc, List.cons_append]
    exact .group hcloser hinner ih

lemma closeWithin_other {c : Char} (hopener : c ≠ '(') (hcloser : c ≠ ')') (depth : ℕ)
    (cs : List Char) :
    closeWithin '(' ')' depth (c :: cs) = (closeWithin '(' ')' depth cs).map (· + 1) := by
  rw [closeWithin, if_neg hopener, if_neg hcloser]

lemma closeWithin_balanced {args : List Char} (h : Balanced args) (depth : ℕ) (rest : List Char) :
    closeWithin '(' ')' (depth + 1) (args ++ rest) =
      (closeWithin '(' ')' (depth + 1) rest).map (· + args.length) := by
  induction h generalizing depth rest with
  | nil => simp
  | plain hc _ ih =>
    rw [List.cons_append, closeWithin_other (by rintro rfl; cases hc) (by rintro rfl; cases hc), ih,
      Option.map_map]
    rfl
  | @group opener closer inner after hcloser _ _ ihInner ihAfter =>
    have hlength : (· + 1) ∘ (· + inner.length) ∘ (· + 1) ∘ (· + after.length) =
        (· + (opener :: (inner ++ closer :: after)).length) := by
      funext k
      simp only [Function.comp_apply, List.length_cons, List.length_append]
      omega
    rw [List.cons_append, List.append_assoc, List.cons_append, ← hlength, ← Option.map_map,
      ← Option.map_map, ← Option.map_map, ← ihAfter]
    unfold closerOf at hcloser
    split at hcloser <;> cases hcloser
    · -- a round bracket brings the depth up, and its closing one brings it down again
      rw [closeWithin, if_pos rfl, ihInner, closeWithin, if_neg (by decide), if_pos rfl,
        if_neg (by omega), Nat.add_sub_cancel]
    · rw [closeWithin_other (by decide) (by decide), ihInner,
        closeWithin_other (by decide) (by decide)]
    · rw [closeWithin_other (by decide) (by decide), ihInner,
        closeWithin_other (by decide) (by decide)]

lemma closeWithin_of_balanced {args : List Char} (h : Balanced args) (behind : List Char) :
    closeWithin '(' ')' 1 (args ++ ')' :: behind) = some args.length := by
  rw [closeWithin_balanced h 0, closeWithin, if_neg (by decide), if_pos rfl, if_pos (by omega)]
  simp

/-- The bracket before a text never closes: nowhere in the text have more been closed than
opened. -/
def Unclosed (left : List Char) : Prop := ∀ p, p <+: left → p.count ')' ≤ p.count '('

lemma closeWithin_of_unclosed {left : List Char} (h : Unclosed left) :
    closeWithin '(' ')' 1 left = none := by
  have hopen : StaysOpen '(' ')' 0 left := h
  have hclose := closeWithin_append (by decide) hopen []
  rwa [List.append_nil, closeWithin, Option.map_none] at hclose

end CodeHealth.Proofs.ArgumentPieces
