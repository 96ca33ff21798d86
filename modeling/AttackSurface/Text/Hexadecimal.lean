/-! Hexadecimal digits, and the characters that they write by code point. -/
namespace AttackSurface.Text

def hexValue? (c : Char) : Option Nat :=
  if '0' ≤ c ∧ c ≤ '9' then some (c.toNat - '0'.toNat)
  else if 'a' ≤ c ∧ c ≤ 'f' then some (c.toNat - 'a'.toNat + 10)
  else if 'A' ≤ c ∧ c ≤ 'F' then some (c.toNat - 'A'.toNat + 10)
  else none

def isHexDigit (c : Char) : Bool := (hexValue? c).isSome

def codePoint? (n : Nat) : Option Char := if n.isValidChar then some (Char.ofNat n) else none

end AttackSurface.Text
