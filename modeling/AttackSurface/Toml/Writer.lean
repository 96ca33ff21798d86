import AttackSurface.Decimal.Shortest

/-!
TOML written for people: sections of keys, and for every string the plainest form that holds it.
-/
namespace AttackSurface.Toml

/-! ## Strings -/

/-- Controls other than the tab and the line break, which only an escape can show. -/
def needsEscape (c : Char) : Bool :=
  (c.toNat < 0x20 && c != '\t' && c != '\n') || c.toNat == 0x7f

/-- The length of the longest run of `c`, given the length of the run that leads to the text. -/
def longestRun (c : Char) (run : Nat) : List Char → Nat
  | [] => run
  | d :: rest => if d = c then longestRun c (run + 1) rest else max run (longestRun c 0 rest)

inductive StringForm where
  | basic
  | literal
  | multiBasic
  | multiLiteral
  deriving DecidableEq, Repr

/-- The first form that shows a string as it is; without one, that with escapes. -/
def StringForm.of (text : List Char) : StringForm :=
  let escapes := text.any needsEscape
  let backslash := text.contains '\\'
  let breaks := text.contains '\n'
  let double := longestRun '"' 0 text
  let single := longestRun '\'' 0 text
  if !escapes && !backslash && double = 0 && !breaks then .basic
  else if !escapes && single = 0 && !breaks then .literal
  else if !escapes && !backslash && double ≤ 2 then .multiBasic
  else if !escapes && single ≤ 2 then .multiLiteral
  else if breaks then .multiBasic
  else .basic

/-- The code of a control character, as `\u` and four hexadecimal digits. -/
def escapeCode (c : Char) : List Char :=
  let digits := (Nat.toDigits 16 c.toNat).map Char.toUpper
  '\\' :: 'u' :: (List.replicate (4 - digits.length) '0' ++ digits)

/-- What stands for a character other than a quote between double quotes. -/
def escapeChar (multi : Bool) (c : Char) : List Char :=
  if c = '\x08' then ['\\', 'b']
  else if c = '\t' then ['\\', 't']
  else if c = '\n' then if multi then [c] else ['\\', 'n']
  else if c = '\x0c' then ['\\', 'f']
  else if c = '\r' then ['\\', 'r']
  else if c = '\\' then ['\\', '\\']
  else if needsEscape c then escapeCode c
  else [c]

/-- The content of a string in double quotes, after `quotes` quotes in a row. Two may stand next to
each other on several lines, and none on one. -/
def escapeQuoted (multi : Bool) (quotes : Nat) : List Char → List Char
  | [] => []
  | c :: rest =>
    if c = '"' then
      if (if multi then 2 else 0) < quotes + 1 then '\\' :: '"' :: escapeQuoted multi 0 rest
      else '"' :: escapeQuoted multi (quotes + 1) rest
    else escapeChar multi c ++ escapeQuoted multi 0 rest

/-- A string in a form. One with line breaks starts on a line of its own. -/
def StringForm.write (form : StringForm) (text : List Char) : List Char :=
  let start := if text.contains '\n' then ['\n'] else []
  match form with
  | .basic => '"' :: (escapeQuoted false 0 text ++ ['"'])
  | .literal => '\'' :: (text ++ ['\''])
  | .multiBasic => "\"\"\"".toList ++ start ++ escapeQuoted true 0 text ++ "\"\"\"".toList
  | .multiLiteral => "'''".toList ++ start ++ text ++ "'''".toList

def writeString (text : String) : List Char := (StringForm.of text.toList).write text.toList

/-- An array of strings: with one at most on its line, else each on a line of its own. -/
def writeStrings : List String → List Char
  | [] => ['[', ']']
  | [text] => '[' :: (writeString text ++ [']'])
  | texts => '[' :: '\n' ::
      (texts.flatMap fun text => "    ".toList ++ writeString text ++ [',', '\n']) ++ [']']

/-! ## Numbers -/

def writeFloat (x : Float) : List Char :=
  if x.isNaN then "nan".toList
  else
    let digits := Decimal.render x
    if x.isInf || digits.contains '.' then digits else digits ++ ['.', '0']

def writeNat (n : Nat) : List Char := Nat.toDigits 10 n

/-! ## Sections -/

inductive Field where
  | natural (n : Nat)
  | float (x : Float)
  | string (text : String)
  | strings (texts : List String)

def Field.write : Field → List Char
  | .natural n => writeNat n
  | .float x => writeFloat x
  | .string text => writeString text
  | .strings texts => writeStrings texts

/-- Integers of a document have 64 bits, one of them for the sign. -/
def Field.fits : Field → Bool
  | .natural n => n ≤ Int64.maxValue.toInt
  | _ => true

structure Section where
  name : String
  fields : List (String × Field)

def Section.write (s : Section) : List Char :=
  '[' :: (s.name.toList ++ [']', '\n']) ++
    s.fields.flatMap fun (key, field) =>
      key.toList ++ " = ".toList ++ field.write ++ ['\n']

def writeSections (sections : List Section) : List Char :=
  (sections.map Section.write).intersperse ['\n'] |>.flatten

/-- The text of a document, unless it holds an integer too large for one. -/
def write? (sections : List Section) : Option String :=
  if sections.all fun s => s.fields.all fun field => field.2.fits then
    some (String.ofList (writeSections sections))
  else none

end AttackSurface.Toml
