/-!
The fewest decimal digits that identify a binary number.

A finite binary number stands for the interval of reals that round to it. Among the decimals in
that interval those with the fewest digits are sought, and of these the one nearest to the number.
All comparisons are exact, between naturals.
-/

namespace CodeHealth.Decimal

/-- A positive binary number, `m * 2 ^ q`. -/
structure Binary where
  m : Nat
  q : Int
  /-- The gap to the number below is half of the gap to the number above. -/
  narrowBelow : Bool

/-- A positive decimal number, `digits * 10 ^ exp`. -/
structure Value where
  digits : Nat
  exp : Int
deriving Repr, DecidableEq

/-- The magnitude of the finite double with the given bits; its sign bit is ignored. -/
def Binary.ofBits64 (bits : UInt64) : Binary :=
  let e := ((bits >>> 52) &&& 0x7FF).toNat
  let f := (bits &&& 0xFFFFFFFFFFFFF).toNat
  if e = 0 then ⟨f, -1074, false⟩ else ⟨Nat.pow 2 52 + f, (e : Int) - 1075, f == 0 && e > 1⟩

/-- The magnitude of the finite single with the given bits; its sign bit is ignored. -/
def Binary.ofBits32 (bits : UInt32) : Binary :=
  let e := ((bits >>> 23) &&& 0xFF).toNat
  let f := (bits &&& 0x7FFFFF).toNat
  if e = 0 then ⟨f, -149, false⟩ else ⟨Nat.pow 2 23 + f, (e : Int) - 150, f == 0 && e > 1⟩

/-- Compares `a * 10 ^ i` with `n * 2 ^ j`. -/
def compareScaled (a : Nat) (i : Int) (n : Nat) (j : Int) : Ordering :=
  compare (a * Nat.pow 10 i.toNat * Nat.pow 2 (-j).toNat)
    (n * Nat.pow 2 j.toNat * Nat.pow 10 (-i).toNat)

/-- Whether a decimal rounds to the binary number: it lies between the two halfway points to the
neighbours, which belong to the interval when `m` is even. -/
def Binary.readsBack (x : Binary) (d : Value) : Bool :=
  let low := if x.narrowBelow then 4 * x.m - 1 else 4 * x.m - 2
  let inclusive := x.m % 2 == 0
  let atLow := compareScaled d.digits d.exp low (x.q - 2)
  let atHigh := compareScaled d.digits d.exp (4 * x.m + 2) (x.q - 2)
  (atLow == .gt || (inclusive && atLow == .eq)) && (atHigh == .lt || (inclusive && atHigh == .eq))

/-- The largest multiple of `10 ^ i` that is not above the number, as a number of steps. -/
def Binary.stepsBelow (x : Binary) (i : Int) : Nat :=
  (x.m * Nat.pow 2 x.q.toNat * Nat.pow 10 (-i).toNat) /
    (Nat.pow 2 (-x.q).toNat * Nat.pow 10 i.toNat)

/-- Whether the number is below `10 ^ k`. -/
def Binary.belowPowerOfTen (x : Binary) (k : Int) : Bool := compareScaled 1 k x.m x.q == .gt

/-- The least of `fuel` powers of ten from `10 ^ k` up that the number is below. -/
def Binary.scaleFrom (x : Binary) : Nat → Int → Int
  | 0, k => k
  | fuel + 1, k => if x.belowPowerOfTen k then k else x.scaleFrom fuel (k + 1)

/-- The least `k` for which the number is below `10 ^ k`. The search starts just below the value
that the binary logarithm gives. -/
def Binary.scale (x : Binary) : Int :=
  let log2 : Int := (x.m.log2 : Int) + x.q
  x.scaleFrom 4 ((log2 * 30103) / 100000 - 1)

/-- Which of two equally near decimals is taken. -/
inductive Tie where
  | toEven
  | upward

/-- The decimal of the grid `10 ^ i` that identifies the number, if there is one. Of two the
nearer is taken. -/
def Binary.onGrid (x : Binary) (tie : Tie) (i : Int) : Option Value :=
  let below : Value := ⟨x.stepsBelow i, i⟩
  let above : Value := ⟨x.stepsBelow i + 1, i⟩
  match x.readsBack below, x.readsBack above with
  | true, true =>
    match compareScaled (2 * below.digits + 1) i (2 * x.m) x.q, tie with
    | .gt, _ => some below
    | .lt, _ => some above
    | .eq, .upward => some above
    | .eq, .toEven => if below.digits % 2 = 0 then some below else some above
  | true, false => some below
  | false, true => some above
  | false, false => none

/-- The first grid of `fuel` grids that has a decimal, from `10 ^ i` down. -/
def Binary.firstGrid (x : Binary) (tie : Tie) : Nat → Int → Option Value
  | 0, _ => none
  | fuel + 1, i => (x.onGrid tie i).or (x.firstGrid tie fuel (i - 1))

/-- Moves trailing zeros of the digits into the exponent. -/
def Value.stripZeros (d : Value) : Nat → Value
  | 0 => d
  | fuel + 1 => if d.digits ≠ 0 ∧ d.digits % 10 = 0 then
      Value.stripZeros ⟨d.digits / 10, d.exp + 1⟩ fuel
    else d

/-- The value of the number itself, written out in decimal. -/
def Binary.exact (x : Binary) : Value :=
  ⟨x.m * Nat.pow 2 x.q.toNat * Nat.pow 5 (-x.q).toNat, min x.q 0⟩

/-- The shortest decimal that identifies the number, the nearest to it among the shortest.
Seventeen digits are always enough. -/
def Binary.shortest (x : Binary) (tie : Tie) : Value :=
  if x.m = 0 then ⟨0, 0⟩
  else ((x.firstGrid tie 17 (x.scale - 1)).getD x.exact).stripZeros 20

/-- The number in tenths, rounded to the nearest; of two equally near tenths the even one. -/
def Binary.roundTenths (x : Binary) : Nat :=
  let num := x.m * Nat.pow 2 x.q.toNat * 10
  let den := Nat.pow 2 (-x.q).toNat
  let quotient := num / den
  match compare (2 * (num % den)) den with
  | .lt => quotient
  | .gt => quotient + 1
  | .eq => if quotient % 2 = 0 then quotient else quotient + 1

end CodeHealth.Decimal
