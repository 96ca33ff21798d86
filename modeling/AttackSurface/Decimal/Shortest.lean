import AttackSurface.Decimal.Basic

/-!
The shortest decimal that reads back as a given floating-point number, and its positional form.

For every number of digits there are two candidates, next to the exact value on either side. The
least number with a candidate that reads back is taken; if both do, the nearer one, and above it
at a tie.
-/
namespace AttackSurface.Decimal

/-- A positive finite number as `m · 2 ^ q`. -/
def mantissaAndExponent (x : Float) : Nat × Int :=
  let bits := x.toBits.toNat
  let fraction := bits % (1 <<< 52)
  let biased := (bits >>> 52) % (1 <<< 11)
  if biased = 0 then (fraction, -1074) else ((1 <<< 52) + fraction, (biased : Int) - 1075)

def exact (x : Float) : Decimal :=
  match mantissaAndExponent x with
  | (m, .ofNat q) => { digits := m <<< q }
  | (m, .negSucc q) => { digits := m * Nat.pow 5 (q + 1), exponent := .negSucc q }

/-- The candidates with `drop` digits less than the exact value, better one first. -/
def candidates (value : Decimal) (drop : Nat) : List Decimal :=
  let unit := Nat.pow 10 drop
  let below := value.digits / unit
  let exponent := value.exponent + drop
  let low : Decimal := { digits := below, exponent }
  let high : Decimal := { digits := below + 1, exponent }
  if 2 * (value.digits % unit) < unit then [low, high] else [high, low]

/-- The shortest decimal that reads back as a positive finite number. -/
def shortest (x : Float) : Decimal :=
  let value := exact x
  let drops := (List.range (digitCount value.digits)).reverse
  let found := drops.findSome? fun drop =>
    (candidates value drop).find? fun candidate => candidate.toFloat == x
  found.getD value

def dropEndZeros (digits : List Char) : List Char × Nat :=
  let kept := (digits.reverse.dropWhile (· == '0')).reverse
  (kept, digits.length - kept.length)

/-- The positional form of a positive decimal: without a point for a whole number, and else with at
least one digit before the point and no zeros at the end. -/
def positional (x : Decimal) : List Char :=
  let (digits, zeros) := dropEndZeros (Nat.toDigits 10 x.digits)
  match x.exponent + zeros with
  | .ofNat n => digits ++ List.replicate n '0'
  | .negSucc n =>
    let places := n + 1
    if places < digits.length then
      digits.take (digits.length - places) ++ '.' :: digits.drop (digits.length - places)
    else '0' :: '.' :: (List.replicate (places - digits.length) '0' ++ digits)

/-- How a floating-point number is shown: with the fewest digits that read back, and never with an
exponent. -/
def render (x : Float) : List Char :=
  if x.isNaN then "NaN".toList
  else
    let magnitude :=
      if x.isInf then "inf".toList
      else if x == 0.0 then ['0']
      else positional (shortest x.abs)
    if x.toBits < 0x8000000000000000 then magnitude else '-' :: magnitude

end AttackSurface.Decimal
