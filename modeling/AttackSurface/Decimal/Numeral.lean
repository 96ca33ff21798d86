import AttackSurface.Decimal.Basic

/-! Numerals as they are written in variables of the environment: ASCII digits with an optional
sign, and for floating-point numbers a point, an exponent, or the name of a special value. -/
namespace AttackSurface.Decimal

def isDigits (text : List Char) : Bool := !text.isEmpty && text.all Char.isDigit

/-- Reads a natural number below `limit`. A plus sign may stand before it. -/
def natural? (limit : Nat) (text : List Char) : Option Nat :=
  let digits := match text with
    | '+' :: rest => rest
    | _ => text
  if isDigits digits ∧ digitsValue digits < limit then some (digitsValue digits) else none

/-- Takes a sign off, and tells whether it was a minus. -/
def takeSign : List Char → Bool × List Char
  | '+' :: rest => (false, rest)
  | '-' :: rest => (true, rest)
  | text => (false, text)

def exponent? : List Char → Option Int
  | [] => some 0
  | mark :: rest =>
    let (negative, digits) := takeSign rest
    if (mark = 'e' ∨ mark = 'E') ∧ isDigits digits then
      some (if negative then -(digitsValue digits : Int) else digitsValue digits)
    else none

/-- Reads a numeral without a sign. Digits may be missing on one side of the point. -/
def unsigned? (text : List Char) : Option Decimal := do
  let whole := text.takeWhile Char.isDigit
  let rest := text.dropWhile Char.isDigit
  let afterPoint := if rest.head? = some '.' then rest.drop 1 else []
  let fraction := afterPoint.takeWhile Char.isDigit
  let rest := if rest.head? = some '.' then afterPoint.dropWhile Char.isDigit else rest
  if whole = [] ∧ fraction = [] then none
  let exponent ← exponent? rest
  return { digits := digitsValue (whole ++ fraction), exponent := exponent - fraction.length }

def float? (text : List Char) : Option Float :=
  let (negative, body) := takeSign text
  let name := String.ofList (body.map Char.toLower)
  if name = "nan" then some (0.0 / 0.0)
  else if name = "inf" ∨ name = "infinity" then some (if negative then -infinity else infinity)
  else (unsigned? body).map fun x => { x with negative }.toFloat

end AttackSurface.Decimal
