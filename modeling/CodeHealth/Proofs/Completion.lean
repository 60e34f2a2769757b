import CodeHealth.Text.Tag
import Mathlib.Data.List.Infix

/-!
Computations that end without a fault.

What a computation yields is followed from step to step: the next step has to end without a fault
for every value that the one before may yield. A text that is written as one piece after another
can be cut between them.
-/

namespace CodeHealth.Proofs.Completion

open CodeHealth.Text

/-! ### Steps -/

/-- A computation ends without a fault, with a value of which something holds. -/
def Yields {α : Type} (x : Checked α) (P : α → Prop) : Prop := ∃ a, x = .ok a ∧ P a

/-- A computation ends without a fault. -/
abbrev Completes {α : Type} (x : Checked α) : Prop := Yields x fun _ => True

section Steps

variable {α β : Type}

lemma yields_ok {P : α → Prop} {a : α} (h : P a) : Yields (.ok a) P := ⟨a, rfl, h⟩

lemma completes_ok (a : α) : Completes (.ok a) := ⟨a, rfl, trivial⟩

lemma completes_of_eq {x : Checked α} {a : α} (h : x = .ok a) : Completes x := ⟨a, h, trivial⟩

lemma Yields.bind {x : Checked α} {f : α → Checked β} {P : α → Prop} {Q : β → Prop}
    (hx : Yields x P) (hf : ∀ a, P a → Yields (f a) Q) : Yields (x >>= f) Q := by
  obtain ⟨a, rfl, ha⟩ := hx
  exact hf a ha

lemma yields_bind_of_eq {x : Checked α} {f : α → Checked β} {Q : β → Prop} {a : α}
    (h : x = .ok a) (hf : Yields (f a) Q) : Yields (x >>= f) Q := by
  rw [h]
  exact hf

lemma completes_filterMapM {f : α → Checked (Option β)} {as : List α}
    (h : ∀ a ∈ as, Completes (f a)) : Completes (as.filterMapM f) := by
  induction as with
  | nil => exact completes_ok []
  | cons a as ih =>
    rw [List.filterMapM_cons]
    have hmore := ih fun a' ha' => h a' (List.mem_cons_of_mem a ha')
    refine (h a List.mem_cons_self).bind fun b? _ => ?_
    cases b? with
    | none => exact hmore
    | some b => exact hmore.bind fun bs _ => completes_ok (b :: bs)

lemma filterMapM_map_eq {γ : Type} {e : γ → α} {f : α → Checked (Option β)} {g : γ → Option β}
    {as : List γ} (h : ∀ a ∈ as, f (e a) = .ok (g a)) :
    (as.map e).filterMapM f = .ok (as.filterMap g) := by
  induction as with
  | nil => rfl
  | cons a as ih =>
    rw [List.map_cons, List.filterMapM_cons, h a List.mem_cons_self, List.filterMap_cons,
      ih fun a' ha' => h a' (List.mem_cons_of_mem a ha')]
    cases g a <;> rfl

lemma filterMapM_eq {f : α → Checked (Option β)} {g : α → Option β} {as : List α}
    (h : ∀ a ∈ as, f a = .ok (g a)) : as.filterMapM f = .ok (as.filterMap g) := by
  have hmap := filterMapM_map_eq (e := id) h
  rwa [List.map_id] at hmap

lemma flatMapM_eq {f : α → Checked (List β)} {g : α → List β} {as : List α}
    (h : ∀ a ∈ as, f a = .ok (g a)) : as.flatMapM f = .ok (as.flatMap g) := by
  induction as with
  | nil => rfl
  | cons a as ih =>
    rw [List.flatMapM_cons, h a List.mem_cons_self,
      ih fun a' ha' => h a' (List.mem_cons_of_mem a ha'), List.flatMap_cons]
    rfl

lemma completes_anyM {p : α → Checked Bool} {as : List α} (h : ∀ a ∈ as, Completes (p a)) :
    Completes (as.anyM p) := by
  induction as with
  | nil => exact completes_ok false
  | cons a as ih =>
    rw [List.anyM_cons]
    refine (h a List.mem_cons_self).bind fun found _ => ?_
    split
    · exact completes_ok true
    · exact ih fun a' ha' => h a' (List.mem_cons_of_mem a ha')

end Steps

/-! ### Cuts -/

lemma sliceTo_append (a b : List Char) : sliceTo (byteLength a) (a ++ b) = .ok a := by
  rw [sliceTo, splitAtByte_byteLength]

lemma sliceFrom_append (a b : List Char) : sliceFrom (byteLength a) (a ++ b) = .ok b := by
  rw [sliceFrom, splitAtByte_byteLength]

lemma slice_append (a b c : List Char) :
    slice (byteLength a) (byteLength a + byteLength b) (a ++ (b ++ c)) = .ok b := by
  rw [slice, if_neg (by omega), ← byteLength_append, ← List.append_assoc, sliceTo_append]
  exact sliceFrom_append a b

/-- Inside a character there is no cut. -/
example : slice 1 2 "é".toList = .error (.cut 1) := by decide

lemma completes_slice_tagExtent {text : List Char} {start stop : ℕ}
    (h : tagExtent text start = some stop) : Completes (slice start stop text) := by
  unfold tagExtent at h
  split at h
  · rename_i before rest hsplit
    obtain ⟨rfl, rfl⟩ := eq_of_splitAtByte hsplit
    obtain ⟨n, -, rfl⟩ := Option.map_eq_some_iff.mp h
    have hcut := slice_append before (rest.take n) (rest.drop n)
    rw [List.take_append_drop] at hcut
    exact completes_of_eq hcut
  · cases h

end CodeHealth.Proofs.Completion
