/-!
Reading of decimals as floating point numbers, rounded to the nearest.
-/

namespace CodeHealth.Decimal

def valueOf (ds : List Char) : Nat := ds.foldl (fun n d => n * 10 + (d.toNat - 48)) 0

/-- A decimal as it is written: its sign, its digits, and the power of ten that they count. -/
structure Numeral where
  negative : Bool
  digits : List Char
  exponent : Int

namespace Numeral

/-- The power of ten that the number lies just below. -/
def scale (n : Numeral) : Int := (n.digits.dropWhile (· == '0')).length + n.exponent

/-- The double that is nearest. What is too large is infinite, what is too small is zero. -/
def toFloat (n : Numeral) : Float :=
  let magnitude :=
    if valueOf n.digits = 0 ∨ n.scale < -400 then 0.0
    else if 400 < n.scale then 1.0 / 0.0
    else Float.ofScientific (valueOf n.digits) (n.exponent < 0) n.exponent.natAbs
  if n.negative then -magnitude else magnitude

/-- The single that is nearest. What is too large is infinite, what is too small is zero. -/
def toFloat32 (n : Numeral) : Float32 :=
  let magnitude : Float32 :=
    if valueOf n.digits = 0 ∨ n.scale < -100 then 0.0
    else if 100 < n.scale then 1.0 / 0.0
    else Float32.ofScientific (valueOf n.digits) (n.exponent < 0) n.exponent.natAbs
  if n.negative then -magnitude else magnitude

end Numeral

end CodeHealth.Decimal
