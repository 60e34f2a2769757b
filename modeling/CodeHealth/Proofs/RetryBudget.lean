import CodeHealth.Proofs.Retry
import Mathlib.Algebra.Group.Nat.Defs
import Mathlib.Order.Bounds.Basic
import Mathlib.Order.Monotone.Basic

/-!
How often a request is made again, and how long the waits are.

A service that answers by a sequence is asked up to its first answer that is no refusal, but no more
than once plus the number of times that a request may be repeated. So the sequence and this number
alone settle everything that passes between the two sides. The waits double, but are computed in
words: where a word is too short, the wait has long reached its bound.
-/

namespace CodeHealth.Proofs.RetryBudget

open CodeHealth.Advice CodeHealth.Proofs.Retry

/-- The service that gives the answers of a sequence one after the other, whatever it is asked. -/
def sequence (r : ℕ → Outcome) : Policy := fun log _ => r (answers log).length

/-- What passes when a request gets the answers from number `j` on and is made again `m` times, with
a wait before each time. -/
def exchange (r : ℕ → Outcome) (q : Request) (j m : ℕ) : Record :=
  (List.range' j m).flatMap (fun i => [.asked q (r i), .waited (waitBefore (i + 1))]) ++
    [.asked q (r (j + m))]

def requests (log : Record) : List Request :=
  log.filterMap fun
    | .asked q _ => some q
    | .waited _ => none

section Exchange

variable (r : ℕ → Outcome) (q : Request) (j m : ℕ)

lemma exchange_succ :
    exchange r q j (m + 1) =
      .asked q (r j) :: .waited (waitBefore (j + 1)) :: exchange r q (j + 1) m := by
  simp [exchange, List.range'_succ, Nat.add_assoc, Nat.add_comm 1 m]

lemma requests_exchange : requests (exchange r q j m) = List.replicate (m + 1) q := by
  induction m generalizing j with
  | zero => rfl
  | succ m ih =>
    have hmore := ih (j + 1)
    rw [exchange_succ, List.replicate_succ, ← hmore]
    rfl

end Exchange

lemma answers_refused (log : Record) (q : Request) (o : Outcome) (n : ℕ) :
    (answers (log ++ [.asked q o, .waited n])).length = (answers log).length + 1 := by
  simp [answers]

/-- **A request goes on up to the first answer that is no refusal**, or until it may not be made
again: it is refused `m` times, and what is handed on is the last answer. -/
lemma completeFrom_sequence (r : ℕ → Outcome) (q : Request) (left j : ℕ) (log : Record)
    (hlog : (answers log).length = j) :
    ∃ m ≤ left, (∀ i < m, isRefusal (r (j + i)) = true) ∧
      (m < left → isRefusal (r (j + m)) = false) ∧
      (completeFrom (played (sequence r)) q left (j + 1)).run log =
        (r (j + m), log ++ exchange r q j m) := by
  have hanswer : sequence r log q = r j := by rw [sequence, hlog]
  induction left generalizing j log with
  | zero =>
    refine ⟨0, le_rfl, nofun, nofun, ?_⟩
    rw [completeFrom_zero, hanswer]
    rfl
  | succ left ih =>
    rcases refusal_cases (r j) with ⟨d, hd⟩ | hno
    · have hlog' := answers_refused log q (.error (.rateLimited d)) (waitBefore (j + 1))
      rw [hlog] at hlog'
      obtain ⟨m, hm, hrefused, hlast, hrun⟩ := ih (j + 1) _ hlog' (by rw [sequence, hlog'])
      have hnext (i : ℕ) : j + 1 + i = j + (i + 1) := by omega
      simp only [hnext] at hrefused hlast hrun
      refine ⟨m + 1, by omega, fun i hi => ?_, fun h => hlast (by omega), ?_⟩
      · cases i with
        | zero => rw [Nat.add_zero, hd]; rfl
        | succ i => exact hrefused i (by omega)
      · rw [completeFrom_of_refused left (j + 1) (hanswer.trans hd), hrun, exchange_succ, hd]
        simp
    · refine ⟨0, Nat.zero_le _, nofun, fun _ => hno, ?_⟩
      rw [completeFrom_of_settled (left + 1) (j + 1) (by rw [hanswer]; exact hno), hanswer]
      rfl

/-! ### Waits -/

lemma waitBefore_bounded (i : ℕ) : waitBefore i = min (500 * 2 ^ (i - 1)) 30000 := waitBefore_eq i

lemma waitBefore_mono : Monotone waitBefore := by
  intro i k h
  have hpow : 2 ^ (i - 1) ≤ 2 ^ (k - 1) := Nat.pow_le_pow_right Nat.two_pos (by omega)
  rw [waitBefore_bounded, waitBefore_bounded]
  omega

/-! ### Requests -/

/-- **A request is made a bounded number of times.** If the first answer that is no refusal has the
number `k`, it is made again `min k n` times, and `n` times if all answers are refusals, each time as
it was, after a wait and only because of a refusal; what is handed on is the last answer. The waits
are half a second, doubled up to half a minute, though they are computed in words of 64 bits. -/
theorem complete_sequence (r : ℕ → Outcome) (q : Request) (n : ℕ) :
    (∃ m, (∀ k, IsLeast {i | isRefusal (r i) = false} k → m = min k n) ∧
      ((∀ i, isRefusal (r i) = true) → m = n) ∧
      (∀ i < m, ∃ d, r i = .error (.rateLimited d)) ∧
      (complete (played (sequence r)) q n).run [] = (r m, exchange r q 0 m) ∧
      requests (exchange r q 0 m) = List.replicate (m + 1) q) ∧
    (∀ i, waitBefore i = min (500 * 2 ^ (i - 1)) 30000 ∧
      Word.saturatingPow64 2 (i - 1) < 2 ^ 64 ∧
      Word.saturatingMul64 500 (Word.saturatingPow64 2 (i - 1)) < 2 ^ 64) ∧
    Monotone waitBefore ∧ ∀ i, waitBefore i ≤ 30000 := by
  refine ⟨?_, fun i => ⟨waitBefore_bounded i, Word.saturatingPow64_lt 2 _,
    Word.saturatingMul64_lt 500 _⟩, waitBefore_mono, fun i => Nat.min_le_right _ _⟩
  obtain ⟨m, hm, hrefused, hlast, hrun⟩ := completeFrom_sequence r q n 0 [] rfl
  simp only [Nat.zero_add, List.nil_append] at hrefused hlast hrun
  refine ⟨m, fun k ⟨hk, hleast⟩ => ?_, fun hall => ?_, fun i hi => ?_, hrun,
    requests_exchange r q 0 m⟩
  · have hmk : m ≤ k := by
      by_contra! hlt
      simp [hrefused k hlt] at hk
    by_cases hmn : m < n
    · have hkm : k ≤ m := hleast (hlast hmn)
      omega
    · omega
  · by_contra hne
    have hno := hlast (by omega)
    simp [hall m] at hno
  · rcases refusal_cases (r i) with hd | hno
    · exact hd
    · simp [hrefused i hi] at hno

/-- A service that is busy when it is asked for the first and for the second time. -/
def busyTwice (i : ℕ) : Outcome := if i < 2 then .error (.rateLimited "slow down") else .ok "done"

theorem complete_sequence_busyTwice :
    IsLeast {i | isRefusal (busyTwice i) = false} 2 ∧
    (complete (played (sequence busyTwice)) default 5).run [] =
      (.ok "done", exchange busyTwice default 0 2) ∧
    (complete (played (sequence busyTwice)) default 1).run [] =
      (.error (.rateLimited "slow down"), exchange busyTwice default 0 1) := by
  have hleast : IsLeast {i | isRefusal (busyTwice i) = false} 2 := by
    refine ⟨rfl, fun i hi => ?_⟩
    by_contra! hlt
    have hbusy : busyTwice i = .error (.rateLimited "slow down") := if_pos hlt
    change isRefusal (busyTwice i) = false at hi
    rw [hbusy] at hi
    exact absurd hi (by decide)
  obtain ⟨⟨m, hm, -, -, hrun, -⟩, -⟩ := complete_sequence busyTwice default 5
  obtain ⟨⟨m', hm', -, -, hrun', -⟩, -⟩ := complete_sequence busyTwice default 1
  obtain rfl : m = 2 := hm 2 hleast
  obtain rfl : m' = 1 := hm' 2 hleast
  exact ⟨hleast, hrun, hrun'⟩

end CodeHealth.Proofs.RetryBudget
