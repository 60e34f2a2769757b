import CodeHealth.Finding.Score
import Mathlib.Data.Rat.Floor
import Mathlib.Tactic.Ring

/-!
Scores in halves of a point.

Every penalty is a multiple of one half, so what findings leave of the score is one as well, and the
rounding to tenths does nothing. There are twenty-one scores.
-/

namespace CodeHealth.Proofs.ScoreHalves

/-- What one finding takes from the score, in halves of a point. -/
def halvesOf : Severity → ℕ
  | .info => 1
  | .warning => 2
  | .error => 4

/-- What a list of findings takes from the score, in halves of a point. -/
def penaltyHalves (fs : List Finding) : ℕ := (fs.map fun f => halvesOf f.severity).sum

/-- What a list of findings leaves of twenty halves. -/
def scoreHalves (fs : List Finding) : ℕ := 20 - penaltyHalves fs

/-- A number of halves as a floating point number. -/
def floatOfHalves (n : ℕ) : Float := Float.ofScientific (5 * n) true 1

lemma penalty_severity (s : Severity) : s.penalty = (halvesOf s : ℚ) / 2 := by
  cases s <;> norm_num [Severity.penalty, halvesOf]

lemma penaltyHalves_cons (f : Finding) (fs : List Finding) :
    penaltyHalves (f :: fs) = halvesOf f.severity + penaltyHalves fs := List.sum_cons

lemma foldl_penalty (fs : List Finding) (total : ℚ) :
    fs.foldl (fun total f => total + f.severity.penalty) total =
      total + (penaltyHalves fs : ℚ) / 2 := by
  induction fs generalizing total with
  | nil => simp [penaltyHalves]
  | cons f fs ih =>
    rw [List.foldl_cons, ih, penaltyHalves_cons, penalty_severity]
    push_cast
    ring

lemma penalty_eq (fs : List Finding) : penalty fs = (penaltyHalves fs : ℚ) / 2 := by
  rw [penalty, foldl_penalty, zero_add]

lemma remainder_eq_max (fs : List Finding) : remainder fs = max (maxScore - penalty fs) 0 := by
  rw [remainder]
  split
  · rw [max_eq_right (by linarith)]
  · rw [max_eq_left (by linarith)]

lemma cast_sub_eq_max (m n : ℕ) : ((m - n : ℕ) : ℚ) = max ((m : ℚ) - n) 0 := by
  rcases Nat.le_total n m with h | h
  · rw [Nat.cast_sub h, max_eq_left (sub_nonneg.mpr (by exact_mod_cast h))]
  · rw [Nat.sub_eq_zero_of_le h, max_eq_right (sub_nonpos.mpr (by exact_mod_cast h)), Nat.cast_zero]

lemma remainder_eq (fs : List Finding) : remainder fs = (scoreHalves fs : ℚ) / 2 := by
  have hten : maxScore - penalty fs = ((20 : ℕ) - (penaltyHalves fs : ℚ)) / 2 := by
    rw [penalty_eq, maxScore]
    push_cast
    ring
  rw [remainder_eq_max, hten, ← zero_div (2 : ℚ), max_div_div_right two_pos.le, ← cast_sub_eq_max,
    scoreHalves]

lemma roundAway_natCast (n : ℕ) : roundAway n = n := by
  have hfloor : ⌊(n : ℚ) + 1 / 2⌋ = n := by
    rw [Int.floor_eq_iff]
    push_cast
    constructor <;> linarith
  rw [roundAway, if_pos n.cast_nonneg]
  exact hfloor

lemma roundAway_remainder (fs : List Finding) :
    roundAway (remainder fs * 10) = (5 * scoreHalves fs : ℕ) := by
  have htenths : remainder fs * 10 = (5 * scoreHalves fs : ℕ) := by
    rw [remainder_eq]
    push_cast
    ring
  rw [htenths, roundAway_natCast]

/-- **The score is what is left of twenty halves.** -/
theorem score_eq (fs : List Finding) : score fs = floatOfHalves (scoreHalves fs) := by
  rw [score, roundAway_remainder, Int.toNat_natCast, floatOfHalves]

lemma score_eq_of_perm {fs gs : List Finding}
    (h : (fs.map (·.severity)).Perm (gs.map (·.severity))) : score fs = score gs := by
  have hpenalty := (h.map halvesOf).sum_eq
  rw [List.map_map, List.map_map] at hpenalty
  rw [score_eq, score_eq, scoreHalves, scoreHalves]
  exact congrArg (fun lost => floatOfHalves (20 - lost)) hpenalty

end CodeHealth.Proofs.ScoreHalves
