/-!
The whole numbers that fit words of 32 and of 64 bits, with a sign and without one, and arithmetic
that stays at the largest number of a word where a result would not fit.
-/

namespace CodeHealth.Word

/-- The bound of numbers of 32 bits without a sign. -/
def bound32 : Nat := 4294967296

/-- The bound of numbers of 64 bits without a sign. -/
def bound64 : Nat := 18446744073709551616

/-- The bound of numbers of 32 bits with a sign. -/
def signedBound32 : Nat := 2147483648

/-- The bound of numbers of 64 bits with a sign. -/
def signedBound64 : Nat := 9223372036854775808

/-- The number of an index, counted from one. The index is cut to 32 bits, and so is the sum. -/
def ordinal32 (i : Nat) : Nat := (i.toUInt32 + 1).toNat

def fitsSigned64 (n : Int) : Bool := -(signedBound64 : Int) ≤ n && n < (signedBound64 : Int)

/-- The product of two numbers of 64 bits without a sign, or the largest such number if the product
does not fit. -/
def saturatingMul64 (a b : Nat) : Nat := min (a * b) (bound64 - 1)

/-- The power of a number of 64 bits without a sign, or the largest such number if the power does
not fit. -/
def saturatingPow64 (b : Nat) : Nat → Nat
  | 0 => 1
  | n + 1 => saturatingMul64 (saturatingPow64 b n) b

theorem ordinal32_eq (i : Nat) : ordinal32 i = (i + 1) % bound32 := by
  simp [ordinal32, bound32]

theorem ordinal32_of_lt {i : Nat} (h : i + 1 < bound32) : ordinal32 i = i + 1 := by
  rw [ordinal32_eq, Nat.mod_eq_of_lt h]

theorem saturatingMul64_lt (a b : Nat) : saturatingMul64 a b < bound64 := by
  unfold saturatingMul64 bound64
  omega

theorem saturatingPow64_lt (b n : Nat) : saturatingPow64 b n < bound64 := by
  cases n with
  | zero => exact Nat.one_lt_succ_succ _
  | succ n => exact saturatingMul64_lt _ b

theorem saturatingMul64_comm (a b : Nat) : saturatingMul64 a b = saturatingMul64 b a := by
  rw [saturatingMul64, Nat.mul_comm, saturatingMul64]

/-- A product is cut only at its end: a factor that was cut before makes no difference. -/
theorem saturatingMul64_min (a b : Nat) (hb : 0 < b) :
    saturatingMul64 (min a (bound64 - 1)) b = saturatingMul64 a b := by
  unfold saturatingMul64
  rcases Nat.le_total a (bound64 - 1) with h | h
  · rw [Nat.min_eq_left h]
  · have hmax : bound64 - 1 ≤ (bound64 - 1) * b := Nat.le_mul_of_pos_right _ hb
    have ha : (bound64 - 1) * b ≤ a * b := Nat.mul_le_mul_right b h
    rw [Nat.min_eq_right h, Nat.min_eq_right hmax, Nat.min_eq_right (Nat.le_trans hmax ha)]

/-- A power is cut only at its end. -/
theorem saturatingPow64_eq (b n : Nat) (hb : 0 < b) :
    saturatingPow64 b n = min (Nat.pow b n) (bound64 - 1) := by
  induction n with
  | zero => rfl
  | succ n ih => rw [saturatingPow64, ih, saturatingMul64_min _ _ hb]; rfl

end CodeHealth.Word
