import CodeHealth.Advice.Service
import Mathlib.Data.List.Basic

/-!
Asking a service that answers as it likes.

The service is played by a policy: what it answers may depend on all that happened before.
Whatever passes between the two sides is written down, so that what a request came to can be
read off the record it leaves.
-/

namespace CodeHealth.Proofs.Retry

open CodeHealth.Advice

/-- What passes between a caller and a service. -/
inductive Act
  | asked (request : Request) (answer : Outcome)
  | waited (milliseconds : ℕ)

abbrev Record := List Act

/-- What a service answers to a request after all that happened. -/
abbrev Policy := Record → Request → Outcome

def played (p : Policy) : Service (StateM Record) where
  ask q := fun log => (p log q, log ++ [.asked q (p log q)])
  wait n := fun log => ((), log ++ [.waited n])

lemma played_ask (p : Policy) (q : Request) (log : Record) :
    ((played p).ask q).run log = pure (p log q, log ++ [.asked q (p log q)]) := rfl

def answers (log : Record) : List Outcome :=
  log.filterMap fun
    | .asked _ o => some o
    | .waited _ => none

/-- The service wants fewer requests. -/
def isRefusal : Outcome → Bool
  | .error f => f.isRateLimit
  | .ok _ => false

/-- The record of a request that is refused again and again, each time with another text and
followed by its wait. -/
def refusals (q : Request) : ℕ → List String → Record
  | _, [] => []
  | k, d :: ds =>
    .asked q (.error (.rateLimited d)) :: .waited (waitBefore k) :: refusals q (k + 1) ds

/-- The record of a request that is refused with the texts `ds` and then settled. -/
def settled (q : Request) (k : ℕ) (ds : List String) (o : Outcome) : Record :=
  refusals q k ds ++ [.asked q o]

lemma settled_cons (q : Request) (k : ℕ) (d : String) (ds : List String) (o : Outcome) :
    settled q k (d :: ds) o =
      .asked q (.error (.rateLimited d)) :: .waited (waitBefore k) :: settled q (k + 1) ds o := rfl

lemma answers_settled (q : Request) (k : ℕ) (ds : List String) (o : Outcome) :
    answers (settled q k ds o) = ds.map (fun d => .error (.rateLimited d)) ++ [o] := by
  induction ds generalizing k with
  | nil => rfl
  | cons d ds ih =>
    have h := ih (k + 1)
    simp only [answers] at h ⊢
    rw [settled_cons, List.filterMap_cons, List.filterMap_cons, h]
    rfl

lemma refusal_cases (o : Outcome) : (∃ d, o = .error (.rateLimited d)) ∨ isRefusal o = false := by
  rcases o with f | reply
  · cases f with
    | rateLimited d => exact Or.inl ⟨d, rfl⟩
    | _ => exact Or.inr rfl
  · exact Or.inr rfl

section Steps

variable {p : Policy} {q : Request} {log : Record}

lemma completeFrom_zero (k : ℕ) :
    (completeFrom (played p) q 0 k).run log = (p log q, log ++ settled q k [] (p log q)) := rfl

lemma completeFrom_of_settled (left k : ℕ) (h : isRefusal (p log q) = false) :
    (completeFrom (played p) q left k).run log = (p log q, log ++ settled q k [] (p log q)) := by
  cases left with
  | zero => rfl
  | succ left =>
    rw [completeFrom, StateT.run_bind, played_ask]
    simp only [pure_bind]
    cases hp : p log q with
    | ok reply => rfl
    | error f =>
      cases f with
      | rateLimited d => rw [hp] at h; cases h
      | _ => rfl

lemma completeFrom_of_refused (left k : ℕ) {d : String}
    (h : p log q = .error (.rateLimited d)) :
    (completeFrom (played p) q (left + 1) k).run log =
      (completeFrom (played p) q left (k + 1)).run
        (log ++ [.asked q (.error (.rateLimited d)), .waited (waitBefore k)]) := by
  rw [completeFrom, StateT.run_bind, played_ask, h]
  -- the wait only adds itself to the record
  change (completeFrom (played p) q left (k + 1)).run (log ++ [.asked q _] ++ [.waited _]) = _
  rw [List.append_assoc]
  rfl

end Steps

/-- **A request is settled.** It is refused a number of times, at most as often as it may be made
again, and each time it waits; the answer that ends it is handed on. A refusal is handed on only
when no attempt is left. -/
theorem completeFrom_played (p : Policy) (q : Request) (left k : ℕ) (log : Record) :
    ∃ ds o, (completeFrom (played p) q left k).run log = (o, log ++ settled q k ds o) ∧
      ds.length ≤ left ∧ (isRefusal o = true → ds.length = left) := by
  induction left generalizing k log with
  | zero => exact ⟨[], p log q, completeFrom_zero k, Nat.le_refl _, fun _ => rfl⟩
  | succ left ih =>
    rcases refusal_cases (p log q) with ⟨d, hd⟩ | hno
    · obtain ⟨ds, o, hrun, hlen, hlast⟩ := ih (k + 1)
        (log ++ [.asked q (.error (.rateLimited d)), .waited (waitBefore k)])
      refine ⟨d :: ds, o, ?_, by simpa using hlen, fun h => by simpa using hlast h⟩
      rw [completeFrom_of_refused left k hd, hrun, settled_cons]
      simp
    · refine ⟨[], p log q, completeFrom_of_settled (left + 1) k hno, by simp, fun h => ?_⟩
      rw [hno] at h
      cases h

end CodeHealth.Proofs.Retry
