import CodeHealth.Text.Checked
import Mathlib.Data.List.Infix

/-!
The bytes of a text.

An ASCII character is one byte, its own number, and every other character has larger bytes alone.
So a byte that is the number of an ASCII character stands for this character, and text can be cut
there.
-/

namespace CodeHealth.Proofs.Utf8Bytes

open CodeHealth.Text

/-- The characters that are one byte. -/
def IsAscii (c : Char) : Prop := c.toNat < 128

/-- The bytes that are a character. -/
def IsLow (b : UInt8) : Prop := b.toNat < 128

instance (c : Char) : Decidable (IsAscii c) := inferInstanceAs (Decidable (_ < _))

instance (b : UInt8) : Decidable (IsLow b) := inferInstanceAs (Decidable (_ < _))

lemma bytes_cons (c : Char) (cs : List Char) :
    bytes (c :: cs) = String.utf8EncodeChar c ++ bytes cs := rfl

@[simp] lemma bytes_append (xs ys : List Char) : bytes (xs ++ ys) = bytes xs ++ bytes ys :=
  List.flatMap_append

@[simp] lemma length_bytes (cs : List Char) : (bytes cs).length = byteLength cs := by
  induction cs with
  | nil => rfl
  | cons c cs ih =>
    rw [bytes_cons, List.length_append, String.length_utf8EncodeChar, ih, byteLength_cons]

lemma length_le_byteLength (cs : List Char) : cs.length ≤ byteLength cs := by
  induction cs with
  | nil => exact le_rfl
  | cons c cs ih =>
    have hc := c.utf8Size_pos
    rw [List.length_cons, byteLength_cons]
    omega

lemma byteLength_le_of_suffix {xs ys : List Char} (h : xs <:+ ys) :
    byteLength xs ≤ byteLength ys := by
  obtain ⟨lead, rfl⟩ := h
  rw [byteLength_append]
  exact Nat.le_add_left _ _

lemma encode_of_isAscii {c : Char} (h : IsAscii c) : String.utf8EncodeChar c = [c.toUInt8] := by
  have hle : c.val.toNat ≤ 127 := Nat.le_of_lt_succ h
  simp only [String.utf8EncodeChar, if_pos hle]
  rfl

lemma utf8Size_of_isAscii {c : Char} (h : IsAscii c) : c.utf8Size = 1 := by
  rw [← String.length_utf8EncodeChar, encode_of_isAscii h]
  rfl

lemma toNat_toUInt8 {c : Char} (h : IsAscii c) : c.toUInt8.toNat = c.toNat := by
  have hlt : c.toNat < 128 := h
  change c.toNat % 256 = c.toNat
  omega

lemma isLow_toUInt8 {c : Char} (h : IsAscii c) : IsLow c.toUInt8 := by
  rw [IsLow, toNat_toUInt8 h]
  exact h

lemma toUInt8_inj {c d : Char} (hc : IsAscii c) (hd : IsAscii d) :
    c.toUInt8 = d.toUInt8 ↔ c = d := by
  refine ⟨fun h => ?_, fun h => h ▸ rfl⟩
  have hnat : c.toNat = d.toNat := by rw [← toNat_toUInt8 hc, ← toNat_toUInt8 hd, h]
  exact Char.toNat_inj.mp hnat

/-- A character that is not ASCII has no byte that is a character. -/
lemma not_isLow_of_mem_encode {c : Char} (h : ¬ IsAscii c) {b : UInt8}
    (hb : b ∈ String.utf8EncodeChar c) : ¬ IsLow b := by
  have hgt : ¬ c.val.toNat ≤ 127 := fun hle => h (Nat.lt_succ_of_le hle)
  simp only [String.utf8EncodeChar, if_neg hgt] at hb
  simp only [IsLow]
  split_ifs at hb <;> simp only [List.mem_cons, List.not_mem_nil, or_false] at hb <;>
    rcases hb with rfl | rfl | rfl | rfl <;> simp only [UInt8.toNat_ofNat'] <;> omega

/-- An offset at which a byte is a character is the place of this character. -/
theorem exists_of_getElem?_bytes {text : List Char} {i : ℕ} {b : UInt8}
    (h : (bytes text)[i]? = some b) (hb : IsLow b) :
    ∃ lead c rest, text = lead ++ c :: rest ∧ byteLength lead = i ∧ IsAscii c ∧ c.toUInt8 = b := by
  induction text generalizing i with
  | nil => simp at h
  | cons c cs ih =>
    rw [bytes_cons] at h
    rcases Nat.lt_or_ge i (String.utf8EncodeChar c).length with hi | hi
    · rw [List.getElem?_append_left hi] at h
      have hc : IsAscii c := by
        by_contra hc
        exact not_isLow_of_mem_encode hc (List.mem_of_getElem? h) hb
      rw [encode_of_isAscii hc] at h hi
      obtain rfl : i = 0 := Nat.lt_one_iff.mp hi
      exact ⟨[], c, cs, rfl, rfl, hc, Option.some.inj h⟩
    · rw [List.getElem?_append_right hi] at h
      obtain ⟨lead, d, rest, rfl, hlead, hd, rfl⟩ := ih h
      refine ⟨c :: lead, d, rest, rfl, ?_, hd, rfl⟩
      rw [byteLength_cons, hlead, ← String.length_utf8EncodeChar]
      omega

/-- The byte at the place of an ASCII character is this character. -/
theorem getElem?_bytes_of_isAscii {lead rest : List Char} {c : Char} (h : IsAscii c) :
    (bytes (lead ++ c :: rest))[byteLength lead]? = some c.toUInt8 := by
  rw [bytes_append, List.getElem?_append_right (length_bytes lead).le, length_bytes, Nat.sub_self,
    bytes_cons, encode_of_isAscii h]
  rfl

/-! ### Bytes of a character -/

/-- A byte of a character: it is an ASCII character exactly if the character is this one. -/
def StandsFor (b : UInt8) (c : Char) : Prop := ∀ d, IsAscii d → (b = d.toUInt8 ↔ c = d)

lemma standsFor_of_mem_encode {c : Char} {b : UInt8} (hb : b ∈ String.utf8EncodeChar c) :
    StandsFor b c := by
  intro d hd
  by_cases hc : IsAscii c
  · obtain rfl : b = c.toUInt8 := by simpa [encode_of_isAscii hc] using hb
    exact toUInt8_inj hc hd
  · have hlow := not_isLow_of_mem_encode hc hb
    constructor
    · rintro rfl
      exact absurd (isLow_toUInt8 hd) hlow
    · rintro rfl
      exact absurd hd hc

lemma StandsFor.beq_eq {b : UInt8} {c d : Char} (h : StandsFor b c) (hd : IsAscii d) :
    (b == d.toUInt8) = (c == d) := by
  rw [Bool.eq_iff_iff, beq_iff_eq, beq_iff_eq, h d hd]

/-! ### Offsets of characters -/

@[simp] lemma offsetAt_zero (text : List Char) : offsetAt text 0 = 0 := rfl

@[simp] lemma offsetAt_cons_succ (c : Char) (cs : List Char) (k : ℕ) :
    offsetAt (c :: cs) (k + 1) = c.utf8Size + offsetAt cs k := rfl

lemma offsetAt_succ {text : List Char} {i : ℕ} {c : Char} (h : text[i]? = some c) :
    offsetAt text (i + 1) = offsetAt text i + c.utf8Size := by
  obtain ⟨hlt, rfl⟩ := List.getElem?_eq_some_iff.mp h
  rw [offsetAt, ← List.take_concat_get' text i hlt, byteLength_append]
  rfl

lemma offsetAt_lt {text : List Char} {i j : ℕ} (hij : i < j) (hj : j ≤ text.length) :
    offsetAt text i < offsetAt text j := by
  induction j with
  | zero => omega
  | succ j ih =>
    have hstep := offsetAt_succ (List.getElem?_eq_getElem (by omega : j < text.length))
    have hsize := (text[j]).utf8Size_pos
    rcases Nat.lt_or_eq_of_le (Nat.le_of_lt_succ hij) with hlt | rfl
    · have hbefore := ih hlt (by omega)
      omega
    · omega

lemma offsetAt_of_le {text : List Char} {i : ℕ} (h : text.length ≤ i) :
    offsetAt text i = byteLength text := by
  rw [offsetAt, List.take_of_length_le h]

lemma exists_byte {text : List Char} {i : ℕ} {c : Char} (h : text[i]? = some c) {k : ℕ}
    (hk : k < c.utf8Size) :
    ∃ b, (bytes text)[offsetAt text i + k]? = some b ∧ StandsFor b c := by
  induction text generalizing i with
  | nil => cases h
  | cons d text ih =>
    cases i with
    | zero =>
      obtain rfl : d = c := by simpa using h
      have hlt : k < (String.utf8EncodeChar d).length := by rwa [String.length_utf8EncodeChar]
      refine ⟨(String.utf8EncodeChar d)[k], ?_, standsFor_of_mem_encode (List.getElem_mem hlt)⟩
      rw [offsetAt_zero, Nat.zero_add, bytes_cons, List.getElem?_append_left hlt,
        List.getElem?_eq_getElem hlt]
    | succ i =>
      obtain ⟨b, hb, hstands⟩ := ih (by simpa using h)
      refine ⟨b, ?_, hstands⟩
      rw [bytes_cons, List.getElem?_append_right, String.length_utf8EncodeChar,
        offsetAt_cons_succ, Nat.add_assoc, Nat.add_sub_cancel_left, hb]
      rw [String.length_utf8EncodeChar, offsetAt_cons_succ]
      omega

end CodeHealth.Proofs.Utf8Bytes
