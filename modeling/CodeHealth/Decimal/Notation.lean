import CodeHealth.Decimal.Shortest

/-!
Writing of floating point numbers. Which digits are written is settled by the shortest decimal; a
notation settles where the point stands and when an exponent is used.
-/

namespace CodeHealth.Decimal

structure Notation where
  /-- The least exponent of the leading digit that is written positionally. -/
  plainFrom : Int
  /-- The greatest exponent of the leading digit that is written positionally. -/
  plainTo : Int
  /-- Whether a whole number shows a point and a zero. -/
  pointZero : Bool
  tie : Tie

/-- A text of `n` zeros. -/
def zeros (n : Nat) : String := String.ofList (List.replicate n '0')

/-- Lays out a positive decimal whose digits are given as text. -/
def Notation.layout (nt : Notation) (digits : String) (exp : Int) : String :=
  let count : Int := digits.length
  let lead := exp + count - 1
  if nt.plainFrom ≤ lead ∧ lead ≤ nt.plainTo then
    if 0 ≤ exp then digits ++ zeros exp.toNat ++ (if nt.pointZero then ".0" else "")
    else if 0 ≤ lead then
      let whole := (lead + 1).toNat
      (digits.take whole).toString ++ "." ++ (digits.drop whole).toString
    else "0." ++ zeros (-lead - 1).toNat ++ digits
  else
    let mantissa :=
      if digits.length = 1 then digits
      else (digits.take 1).toString ++ "." ++ (digits.drop 1).toString
    mantissa ++ "e" ++ toString lead

/-- Writes a finite number, given its sign and its magnitude. -/
def Notation.write (nt : Notation) (negative : Bool) (x : Binary) : String :=
  let sign := if negative then "-" else ""
  if x.m = 0 then sign ++ (if nt.pointZero then "0.0" else "0")
  else
    let d := x.shortest nt.tie
    sign ++ nt.layout (toString d.digits) d.exp

/-- Whether the sign bit of a double is set. -/
def isNegative (x : Float) : Bool := x.toBits >>> 63 == 1

def ofFloat (x : Float) : Binary := .ofBits64 x.toBits

def nameOf (isNaN negative : Bool) : String :=
  if isNaN then "NaN" else if negative then "-inf" else "inf"

def Notation.write32 (nt : Notation) (x : Float32) : String :=
  let negative := x.toBits >>> 31 == 1
  if x.isFinite then nt.write negative (.ofBits32 x.toBits) else nameOf x.isNaN negative

def Notation.write64 (nt : Notation) (x : Float) : String :=
  if x.isFinite then nt.write (isNegative x) (ofFloat x) else nameOf x.isNaN (isNegative x)

/-- A number with one decimal place; a tie goes to the even tenth. -/
def oneDecimal (x : Float) : String :=
  let tenths := (ofFloat x).roundTenths
  (if isNegative x then "-" else "") ++ toString (tenths / 10) ++ "." ++ toString (tenths % 10)

/-- Numbers in running text: positional, and without a point when whole. -/
def plain : Notation := ⟨-400, 400, false, .upward⟩

end CodeHealth.Decimal
