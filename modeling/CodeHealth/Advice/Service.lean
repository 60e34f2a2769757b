import CodeHealth.Advice.Request
import CodeHealth.Word

/-!
Asking a service. A request is made again only after the service wanted fewer of them, a bounded
number of times and after longer and longer waits.
-/

namespace CodeHealth.Advice

/-- A service that can be asked, and a way to let time pass, in some kind of computation. -/
structure Service (m : Type → Type) where
  ask : Request → m Outcome
  /-- Waits for a number of milliseconds. -/
  wait : Nat → m Unit

def maxWait : Nat := 30000

/-- The wait before a repeated request, the first of which has number one: half a second, doubled
each time up to the longest wait. It is computed in words of 64 bits. -/
def waitBefore (attempt : Nat) : Nat :=
  min (Word.saturatingMul64 500 (Word.saturatingPow64 2 (attempt - 1))) maxWait

/-- The waits double up to the longest one: where the computation saturates, they have long been
longer. -/
theorem waitBefore_eq (attempt : Nat) :
    waitBefore attempt = min (500 * Nat.pow 2 (attempt - 1)) maxWait := by
  have hcut : Word.saturatingMul64 500 (Word.saturatingPow64 2 (attempt - 1)) =
      min (500 * Nat.pow 2 (attempt - 1)) (Word.bound64 - 1) := by
    rw [Word.saturatingPow64_eq 2 _ (by decide), Word.saturatingMul64_comm,
      Word.saturatingMul64_min _ _ (by decide), Word.saturatingMul64_comm, Word.saturatingMul64]
  have hlong : maxWait ≤ Word.bound64 - 1 := by decide
  rw [waitBefore, hcut, Nat.min_assoc, Nat.min_eq_right hlong]

/-- Makes a request up to `left` times again, the next time with number `attempt`. -/
def completeFrom {m : Type → Type} [Monad m] (service : Service m) (request : Request) :
    Nat → Nat → m Outcome
  | 0, _ => service.ask request
  | left + 1, attempt => do
    match ← service.ask request with
    | .error (.rateLimited _) =>
      service.wait (waitBefore attempt)
      completeFrom service request left (attempt + 1)
    | outcome => pure outcome

/-- Makes a request, and again up to `retries` times while the service wants fewer. -/
def complete {m : Type → Type} [Monad m] (service : Service m) (request : Request)
    (retries : Nat) : m Outcome :=
  completeFrom service request retries 1

end CodeHealth.Advice
