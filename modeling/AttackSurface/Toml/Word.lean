import AttackSurface.Decimal.Numeral
import AttackSurface.Toml.Value

/-! TOML values of one word: truth values, numbers, dates and times. -/
namespace AttackSurface.Toml

/-! ## Numbers -/

/-- The digits of a numeral with single underscores between them. -/
def digitsOf (isDigit : Char → Bool) (afterDigit : Bool) : List Char → Option (List Char)
  | [] => if afterDigit then some [] else none
  | c :: rest =>
    if isDigit c then (digitsOf isDigit true rest).map (c :: ·)
    else if c = '_' ∧ afterDigit then digitsOf isDigit false rest
    else none

/-- The digits of a decimal integer, which has no needless zero before it. -/
def wholeDigits (text : List Char) : Option (List Char) := do
  let digits ← digitsOf Char.isDigit false text
  if digits.head? = some '0' ∧ digits.length ≠ 1 then none
  return digits

def inBase? (base : Nat) (text : List Char) : Option Nat := do
  let digit? (c : Char) : Option Nat :=
    let value := if c.isDigit then c.toNat - '0'.toNat else c.toLower.toNat - 'a'.toNat + 10
    if (c.isDigit ∨ ('a' ≤ c.toLower ∧ c.toLower ≤ 'f')) ∧ value < base then some value else none
  let digits ← digitsOf (fun c => (digit? c).isSome) false text
  return (digits.filterMap digit?).foldl (fun n digit => base * n + digit) 0

def fitsInteger (n : Int) : Bool := Int64.minValue.toInt ≤ n && n ≤ Int64.maxValue.toInt

def integer? (word : List Char) : Option Int := do
  let n : Int ← match word with
    | '0' :: 'x' :: digits => (inBase? 16 digits).map Int.ofNat
    | '0' :: 'o' :: digits => (inBase? 8 digits).map Int.ofNat
    | '0' :: 'b' :: digits => (inBase? 2 digits).map Int.ofNat
    | _ =>
      let (negative, body) := Decimal.takeSign word
      (wholeDigits body).map fun digits =>
        if negative then -(Decimal.digitsValue digits : Int) else Decimal.digitsValue digits
  if fitsInteger n then some n else none

def cutAt (p : Char → Bool) (text : List Char) : List Char × Option (List Char) :=
  let before := text.takeWhile fun c => !p c
  (before, if before.length < text.length then some (text.drop (before.length + 1)) else none)

def decimal? (word : List Char) : Option Decimal := do
  let (negative, body) := Decimal.takeSign word
  let (mantissa, exponentText) := cutAt (fun c => c == 'e' || c == 'E') body
  let (wholeText, fractionText) := cutAt (· == '.') mantissa
  if exponentText.isNone ∧ fractionText.isNone then none
  let whole ← wholeDigits wholeText
  let fraction ← match fractionText with
    | none => some []
    | some text => digitsOf Char.isDigit false text
  let exponent : Int ← match exponentText with
    | none => some 0
    | some text =>
      let (down, text) := Decimal.takeSign text
      (digitsOf Char.isDigit false text).map fun digits =>
        if down then -(Decimal.digitsValue digits : Int) else Decimal.digitsValue digits
  return {
    negative
    digits := Decimal.digitsValue (whole ++ fraction)
    exponent := exponent - fraction.length }

/-- Reads a floating-point number. One too large is refused. -/
def float? (word : List Char) : Option Float :=
  let (negative, body) := Decimal.takeSign word
  if body = ['i', 'n', 'f'] then some (if negative then -Decimal.infinity else Decimal.infinity)
  else if body = ['n', 'a', 'n'] then some (0.0 / 0.0)
  else (decimal? word).bind fun x => if x.toFloat == Decimal.infinity then none else some x.toFloat

/-! ## Dates and times -/

def takeDigits (count : Nat) (text : List Char) : Option (Nat × List Char) :=
  let digits := text.take count
  if digits.length = count ∧ digits.all Char.isDigit then
    some (Decimal.digitsValue digits, text.drop count)
  else none

def takeChar (c : Char) : List Char → Option (List Char)
  | [] => none
  | d :: rest => if c = d then some rest else none

def isLeapYear (year : Nat) : Bool := year % 4 = 0 && (year % 100 ≠ 0 || year % 400 = 0)

def daysOfMonth (year month : Nat) : Nat :=
  if month = 2 then if isLeapYear year then 29 else 28
  else if month = 4 ∨ month = 6 ∨ month = 9 ∨ month = 11 then 30
  else 31

def takeDate (text : List Char) : Option (List Char) := do
  let (year, rest) ← takeDigits 4 text
  let (month, rest) ← takeDigits 2 (← takeChar '-' rest)
  let (day, rest) ← takeDigits 2 (← takeChar '-' rest)
  if 1 ≤ month ∧ month ≤ 12 ∧ 1 ≤ day ∧ day ≤ daysOfMonth year month then some rest else none

/-- Takes a time of day off; a second of 60 is a leap second. -/
def takeTime (text : List Char) : Option (List Char) := do
  let (hour, rest) ← takeDigits 2 text
  let (minute, rest) ← takeDigits 2 (← takeChar ':' rest)
  let (second, rest) ← takeDigits 2 (← takeChar ':' rest)
  if 23 < hour ∨ 59 < minute ∨ 60 < second then none
  match rest with
  | '.' :: fraction =>
    if fraction.head?.any Char.isDigit then some (fraction.dropWhile Char.isDigit) else none
  | _ => some rest

/-- Is the text nothing or a distance from universal time? -/
def isOffset (text : List Char) : Bool :=
  text = [] || text = ['Z'] || text = ['z'] ||
    (do
      let sign ← text.head?
      if sign ≠ '+' ∧ sign ≠ '-' then none
      let (hour, rest) ← takeDigits 2 (text.drop 1)
      let (minute, rest) ← takeDigits 2 (← takeChar ':' rest)
      if hour ≤ 23 ∧ minute ≤ 59 ∧ rest = [] then some () else none : Option Unit).isSome

def isDateTime (word : List Char) : Bool :=
  match takeDate word with
  | some [] => true
  | some (mark :: time) =>
    (mark = 'T' || mark = 't' || mark = ' ') && (takeTime time).any isOffset
  | none => takeTime word = some []

/-! ## Words -/

def isWordPart (c : Char) : Bool :=
  c.isAlphanum || c == '_' || c == '+' || c == '-' || c == '.' || c == ':'

def ofWord? (word : List Char) : Option Value :=
  if word = "true".toList then some (.boolean true)
  else if word = "false".toList then some (.boolean false)
  else if isDateTime word then some (.dateTime (String.ofList word))
  else ((integer? word).map .integer).or ((float? word).map .float)

/-- The word at the start of a text, and what follows it. A date and a time may be a space apart. -/
def takeWord (text : List Char) : List Char × List Char :=
  let word := text.takeWhile isWordPart
  match text.dropWhile isWordPart with
  | ' ' :: c :: rest =>
    if takeDate word = some [] ∧ c.isDigit then
      (word ++ ' ' :: (c :: rest).takeWhile isWordPart, (c :: rest).dropWhile isWordPart)
    else (word, ' ' :: c :: rest)
  | rest => (word, rest)

end AttackSurface.Toml
