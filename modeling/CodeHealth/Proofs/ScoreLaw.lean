import CodeHealth.Proofs.PresetOrder
import Mathlib

/-!
The law of the score.

What is shown is a floating point number. Here its value is taken as it is, a rational, and compared
with what the penalties leave of ten points. The two are equal, and the rounding does nothing, since
every value on the way is a multiple of one half.
-/

namespace CodeHealth.Proofs.ScoreLaw

open CodeHealth.Proofs.PresetOrder CodeHealth.Proofs.ScoreHalves

/-- The value of a finite floating point number. -/
def valueOf (x : Float) : ℚ :=
  let b := Decimal.ofFloat x
  let magnitude : ℚ := (b.m * 2 ^ b.q.toNat : ℕ) / (2 ^ (-b.q).toNat : ℕ)
  if Decimal.isNegative x then -magnitude else magnitude

def reweighed (s : Severity) (f : Finding) : Finding := { f with severity := s }

/-! ### Values -/

lemma valueOf_floatOfHalves {n : ℕ} (h : n ≤ 20) : valueOf (floatOfHalves n) = n / 2 := by
  have hparts : ∀ n ≤ 20, Decimal.isNegative (floatOfHalves n) = false ∧
      (Decimal.ofFloat (floatOfHalves n)).m * 2 ^ (Decimal.ofFloat (floatOfHalves n)).q.toNat * 2 =
        n * 2 ^ (-(Decimal.ofFloat (floatOfHalves n)).q).toNat := by
    decide +kernel
  obtain ⟨hsign, hmagnitude⟩ := hparts n h
  have hpos : (0 : ℚ) < (2 ^ (-(Decimal.ofFloat (floatOfHalves n)).q).toNat : ℕ) := by positivity
  rw [valueOf, hsign, if_neg Bool.false_ne_true, div_eq_div_iff hpos.ne' two_ne_zero]
  exact_mod_cast hmagnitude

lemma valueOf_score (fs : List Finding) : valueOf (score fs) = (scoreHalves fs : ℚ) / 2 := by
  have hle : scoreHalves fs ≤ 20 := Nat.sub_le _ _
  rw [score_eq, valueOf_floatOfHalves hle]

/-! ### Halves -/

section Halves

variable (fs gs : List Finding)

lemma penaltyHalves_append :
    penaltyHalves (fs ++ gs) = penaltyHalves fs + penaltyHalves gs := by
  rw [penaltyHalves, List.map_append, List.sum_append, penaltyHalves, penaltyHalves]

lemma penaltyHalves_eq_counts : penaltyHalves fs =
    4 * (SeverityCounts.ofFindings fs).error + 2 * (SeverityCounts.ofFindings fs).warning +
      (SeverityCounts.ofFindings fs).info := by
  induction fs with
  | nil => rfl
  | cons f fs ih =>
    rw [← List.singleton_append, penaltyHalves_append, ih]
    cases hf : f.severity <;>
      simp [SeverityCounts.ofFindings, penaltyHalves, halvesOf, hf] <;> omega

end Halves

lemma scoreHalves_append (fs gs : List Finding) :
    scoreHalves (fs ++ gs) = scoreHalves fs + scoreHalves gs - 20 := by
  rw [scoreHalves, scoreHalves, scoreHalves, penaltyHalves_append]
  omega

lemma valueOf_score_le {fs gs : List Finding} (h : penaltyHalves fs ≤ penaltyHalves gs) :
    valueOf (score gs) ≤ valueOf (score fs) := by
  have hhalves : scoreHalves gs ≤ scoreHalves fs := Nat.sub_le_sub_left h 20
  rw [valueOf_score, valueOf_score]
  have hcast : (scoreHalves gs : ℚ) ≤ scoreHalves fs := by exact_mod_cast hhalves
  linarith

lemma penaltyHalves_reweighed {f : Finding} {s : Severity} (h : s.atLeast f.severity = true)
    (fs gs : List Finding) :
    penaltyHalves (fs ++ f :: gs) ≤ penaltyHalves (fs ++ reweighed s f :: gs) := by
  have hone : halvesOf f.severity ≤ halvesOf (reweighed s f).severity := halvesOf_le_of_atLeast h
  rw [penaltyHalves_append, penaltyHalves_append, penaltyHalves_cons, penaltyHalves_cons]
  omega

lemma atLeast_escalate (s : Severity) : s.escalate.atLeast s = true := by cases s <;> rfl

/-! ### The law -/

/-- What holds of the scores of all lists of findings, in exact numbers. -/
structure Lawful : Prop where
  /-- Ten points less two for an error, one for a warning and one half for an info, and not below
  zero. -/
  formula : ∀ fs, let counts := SeverityCounts.ofFindings fs
    valueOf (score fs) =
      max 0 (10 - (2 * (counts.error : ℚ) + (counts.warning : ℚ) + (counts.info : ℚ) / 2))
  halves : ∀ fs, ∃ n : ℕ, valueOf (score fs) = (n : ℚ) / 2
  /-- The penalties added, taken from ten and cut off come to the score, and are in tenths
  before they are rounded. -/
  stepwise : ∀ fs, valueOf (score fs) = remainder fs ∧
    (roundAway (remainder fs * 10) : ℚ) / 10 = remainder fs
  bounds : ∀ fs, 0 ≤ valueOf (score fs) ∧ valueOf (score fs) ≤ 10
  full : ∀ fs, valueOf (score fs) = 10 ↔ fs = []
  /-- Neither the order counts nor anything but the severities. -/
  severities : ∀ fs gs, (fs.map (·.severity)).Perm (gs.map (·.severity)) → score fs = score gs
  added : ∀ fs f gs, valueOf (score (fs ++ f :: gs)) ≤ valueOf (score (fs ++ gs))
  heavier : ∀ fs f gs s, s.atLeast f.severity = true →
    valueOf (score (fs ++ reweighed s f :: gs)) ≤ valueOf (score (fs ++ f :: gs))
  escalated : ∀ fs f gs, valueOf (score (fs ++ reweighed f.severity.escalate f :: gs)) ≤
    valueOf (score (fs ++ f :: gs))
  merged : ∀ fs gs, valueOf (score (fs ++ gs)) =
    max 0 (valueOf (score fs) + valueOf (score gs) - 10)

lemma valueOf_score_eq (fs : List Finding) :
    valueOf (score fs) = max 0 (10 - (penaltyHalves fs : ℚ) / 2) := by
  rw [valueOf_score, ← remainder_eq, remainder_eq_max, penalty_eq, max_comm]
  rfl

lemma valueOf_score_bounds (fs : List Finding) :
    0 ≤ valueOf (score fs) ∧ valueOf (score fs) ≤ 10 := by
  rw [valueOf_score_eq]
  exact ⟨le_max_left _ _, max_le (by norm_num) (sub_le_self _ (by positivity))⟩

lemma penaltyHalves_eq_zero_iff (fs : List Finding) : penaltyHalves fs = 0 ↔ fs = [] := by
  cases fs with
  | nil => simp [penaltyHalves]
  | cons f fs =>
    have hpos : 0 < halvesOf f.severity := by cases f.severity <;> decide
    rw [penaltyHalves_cons]
    simp only [reduceCtorEq, iff_false]
    omega

lemma valueOf_score_eq_ten_iff (fs : List Finding) : valueOf (score fs) = 10 ↔ fs = [] := by
  rw [← penaltyHalves_eq_zero_iff, valueOf_score, scoreHalves, div_eq_iff two_ne_zero]
  have hcast : ((20 - penaltyHalves fs : ℕ) : ℚ) = 10 * 2 ↔ 20 - penaltyHalves fs = 20 := by
    rw [← @Nat.cast_inj ℚ]
    norm_num
  rw [hcast]
  omega

/-- What two lists take is added. A list that has no points left takes at least ten, so nothing is
lost where its score was cut off. -/
lemma valueOf_score_append (fs gs : List Finding) : valueOf (score (fs ++ gs)) =
    max 0 (valueOf (score fs) + valueOf (score gs) - 10) := by
  have hsum : ((scoreHalves fs + scoreHalves gs : ℕ) : ℚ) - (20 : ℕ) =
      2 * ((scoreHalves fs : ℚ) / 2 + (scoreHalves gs : ℚ) / 2 - 10) := by
    push_cast
    ring
  rw [valueOf_score, valueOf_score, valueOf_score, scoreHalves_append, cast_sub_eq_max, hsum,
    max_comm, ← mul_zero (2 : ℚ), ← mul_max_of_nonneg _ _ two_pos.le, mul_zero,
    mul_div_cancel_left₀ _ two_ne_zero]

/-- **The law of the score.** -/
theorem score_lawful : Lawful where
  formula fs := by
    rw [valueOf_score_eq, penaltyHalves_eq_counts]
    push_cast
    ring_nf
  halves fs := ⟨_, valueOf_score fs⟩
  stepwise fs := by
    rw [valueOf_score, roundAway_remainder, remainder_eq]
    refine ⟨rfl, ?_⟩
    push_cast
    ring
  bounds := valueOf_score_bounds
  full := valueOf_score_eq_ten_iff
  severities _ _ := score_eq_of_perm
  added fs f gs := valueOf_score_le <| by
    rw [penaltyHalves_append, penaltyHalves_append, ← List.singleton_append, penaltyHalves_append]
    omega
  heavier fs f gs s h := valueOf_score_le (penaltyHalves_reweighed h fs gs)
  escalated fs f gs := valueOf_score_le (penaltyHalves_reweighed (atLeast_escalate _) fs gs)
  merged := valueOf_score_append

end CodeHealth.Proofs.ScoreLaw
