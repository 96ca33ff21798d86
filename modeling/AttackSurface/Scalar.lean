/-! Numbers to compute ranks with: floating-point numbers, or exact rational ones. -/
namespace AttackSurface

class Scalar (α : Type) extends Add α, Sub α, Mul α, Div α where
  ofNat : Nat → α
  abs : α → α
  less : α → α → Bool
  isFinite : α → Bool

namespace Scalar

instance : Scalar Float where
  ofNat := Float.ofNat
  abs := Float.abs
  less a b := a < b
  isFinite := Float.isFinite

instance : Scalar Rat where
  ofNat n := n
  abs := Rat.abs
  less a b := a < b
  isFinite _ := true

def sum {α : Type} [Scalar α] (xs : List α) : α := xs.foldl (· + ·) (ofNat 0)

end Scalar

/-- The floating-point number nearest to a quotient of small numbers. -/
def nearestFloat (q : Rat) : Float := Float.ofInt q.num / Float.ofNat q.den

end AttackSurface
