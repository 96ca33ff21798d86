/-! Decimal numbers, and the floating-point numbers nearest to them. -/
namespace AttackSurface

/-- The number `± digits · 10 ^ exponent`. -/
structure Decimal where
  negative : Bool := false
  digits : Nat
  exponent : Int := 0
  deriving DecidableEq, Repr

namespace Decimal

def digitsValue (digits : List Char) : Nat :=
  digits.foldl (fun value digit => 10 * value + (digit.toNat - '0'.toNat)) 0

def digitCount (n : Nat) : Nat := (Nat.toDigits 10 n).length

def infinity : Float := 1.0 / 0.0

/-- The nearest floating-point number; infinity beyond the largest one. Numbers of more than 310
digits, or below `10 ^ -330`, are decided by their size alone. -/
def toFloat (x : Decimal) : Float :=
  let size := digitCount x.digits + x.exponent
  let magnitude :=
    if x.digits = 0 then 0.0
    else if 310 < size then infinity
    else if size < -330 then 0.0
    else Float.ofScientific x.digits (x.exponent < 0) x.exponent.natAbs
  if x.negative then -magnitude else magnitude

end Decimal

end AttackSurface
