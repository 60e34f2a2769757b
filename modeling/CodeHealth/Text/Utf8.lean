/-!
Byte offsets in a text. A text is a list of characters, an offset counts the bytes of its UTF-8
form, and `splitAtByte` says where an offset cuts: only the offsets between two characters do.
-/

namespace CodeHealth.Text

/-- The number of bytes of a text in UTF-8. -/
def byteLength : List Char → Nat
  | [] => 0
  | c :: cs => c.utf8Size + byteLength cs

@[simp] theorem byteLength_nil : byteLength [] = 0 := rfl

@[simp] theorem byteLength_cons (c : Char) (cs : List Char) :
    byteLength (c :: cs) = c.utf8Size + byteLength cs := rfl

@[simp] theorem byteLength_append (xs ys : List Char) :
    byteLength (xs ++ ys) = byteLength xs + byteLength ys := by
  induction xs with
  | nil => simp
  | cons c cs ih => simp [ih, Nat.add_assoc]

/-- The bytes of a text in UTF-8. -/
def bytes (text : List Char) : List UInt8 := text.flatMap String.utf8EncodeChar

/-- What stands before and after a byte offset; nothing if the offset falls inside a character or
behind the end. -/
def splitAtByte : Nat → List Char → Option (List Char × List Char)
  | 0, cs => some ([], cs)
  | _ + 1, [] => none
  | n + 1, c :: cs =>
    if c.utf8Size ≤ n + 1 then
      (splitAtByte (n + 1 - c.utf8Size) cs).map fun (before, after) => (c :: before, after)
    else none

/-- An offset between two characters cuts there. -/
theorem splitAtByte_byteLength (xs ys : List Char) :
    splitAtByte (byteLength xs) (xs ++ ys) = some (xs, ys) := by
  induction xs with
  | nil => cases ys <;> rfl
  | cons c cs ih =>
    have hc := c.utf8Size_pos
    obtain ⟨n, hn⟩ : ∃ n, byteLength (c :: cs) = n + 1 :=
      ⟨byteLength (c :: cs) - 1, by simp; omega⟩
    have hle : c.utf8Size ≤ n + 1 := by rw [← hn]; simp
    have hsub : n + 1 - c.utf8Size = byteLength cs := by rw [← hn]; simp
    rw [hn, List.cons_append, splitAtByte, if_pos hle, hsub, ih]
    rfl

theorem eq_of_splitAtByte {n : Nat} {cs before after : List Char}
    (h : splitAtByte n cs = some (before, after)) :
    cs = before ++ after ∧ byteLength before = n := by
  induction cs generalizing n before after with
  | nil =>
    cases n with
    | zero => simp [splitAtByte] at h; obtain ⟨rfl, rfl⟩ := h; simp
    | succ n => simp [splitAtByte] at h
  | cons c cs ih =>
    cases n with
    | zero => simp [splitAtByte] at h; obtain ⟨rfl, rfl⟩ := h; simp
    | succ n =>
      rw [splitAtByte] at h
      split at h
      · obtain ⟨⟨b, a⟩, hb, he⟩ := Option.map_eq_some_iff.1 h
        simp only [Prod.mk.injEq] at he
        obtain ⟨rfl, rfl⟩ := he
        obtain ⟨hcs, hlen⟩ := ih hb
        refine ⟨by simp [hcs], ?_⟩
        simp only [byteLength_cons, hlen]
        omega
      · simp at h

end CodeHealth.Text
