import AttackSurface.Text.Alphanumeric
import AttackSurface.Text.Blank
import AttackSurface.Text.Hexadecimal

/-!
Patterns: the regular expressions that the value of a field can be compared with.

Only their form is decided here. A pattern stands between braces, so it holds no closing brace:
repetition counts, and all else that is written in braces, are never complete.
-/
namespace AttackSurface.Log.Pattern

structure Mode where
  /-- Blanks and comments do not count. -/
  spaced : Bool := false
  /-- Classes reach beyond ASCII. -/
  unicode : Bool := true
  deriving DecidableEq, Repr

/-! ## Layout -/

/-- Skips blanks and comments. A comment reaches from a number sign to the end of its line. -/
def skipLayout (inComment : Bool) : List Char → List Char
  | [] => []
  | c :: rest =>
    if inComment then skipLayout (c != '\n') rest
    else if Text.isBlank c then skipLayout false rest
    else if c = '#' then skipLayout true rest
    else c :: rest

def Mode.skip (mode : Mode) (text : List Char) : List Char :=
  if mode.spaced then skipLayout false text else text

/-! ## Escapes -/

inductive Escape where
  | char (c : Char)
  | anyOf
  | place
  deriving DecidableEq, Repr

/-- ASCII characters that stand for themselves after a backslash. -/
def isEscapable (c : Char) : Bool :=
  c.toNat < 0x80 && !c.isAlphanum && c != '<' && c != '>'

/-- The number that `count` hexadecimal digits write, after `value`. -/
def readHex (mode : Mode) : (count value : Nat) → List Char → Option (Nat × List Char)
  | 0, value, text => some (value, text)
  | count + 1, value, text =>
    match mode.skip text with
    | [] => none
    | c :: rest => do
      let digit ← Text.hexValue? c
      readHex mode count (16 * value + digit) rest

/-- A character by its code point. Beyond ASCII, two digits mean a byte, which is no character by
itself. -/
def readCodePoint (mode : Mode) (digits : Nat) (text : List Char) : Option (Escape × List Char) := do
  let (n, rest) ← readHex mode digits 0 text
  let c ← Text.codePoint? n
  if digits = 2 ∧ 0x80 ≤ n ∧ !mode.unicode then none else some (.char c, rest)

def categories : List Char := ['c', 'l', 'm', 'n', 'p', 's', 'z']

/-- Reads an escape after its backslash. Word boundaries are told in ASCII only. -/
def readEscape (mode : Mode) : List Char → Option (Escape × List Char)
  | [] => none
  | c :: rest =>
    if c = 'x' then readCodePoint mode 2 rest
    else if c = 'u' then readCodePoint mode 4 rest
    else if c = 'U' then readCodePoint mode 8 rest
    else if c = 'p' ∨ c = 'P' then
      match mode.skip rest with
      | letter :: rest =>
        if mode.unicode && categories.contains letter.toLower then some (.anyOf, rest) else none
      | [] => none
    else if c = 'd' ∨ c = 's' ∨ c = 'w' then some (.anyOf, rest)
    else if c = 'D' ∨ c = 'S' ∨ c = 'W' then if mode.unicode then some (.anyOf, rest) else none
    else if c = 'A' ∨ c = 'z' then some (.place, rest)
    else if c = 'b' ∨ c = 'B' ∨ c = '<' ∨ c = '>' then
      if mode.unicode then none else some (.place, rest)
    else if c = 'a' then some (.char '\x07', rest)
    else if c = 'f' then some (.char '\x0c', rest)
    else if c = 'n' then some (.char '\n', rest)
    else if c = 'r' then some (.char '\r', rest)
    else if c = 't' then some (.char '\t', rest)
    else if c = 'v' then some (.char '\x0b', rest)
    else if isEscapable c then some (.char c, rest)
    else none

/-! ## Nesting

A pattern is measured by how deep its parts are nested. -/

/-- The depth of parts in a row, of which a single one needs no row. -/
def rowDepth : List Nat → Nat
  | [] => 0
  | [depth] => depth
  | depths => (depths.foldl max 0) + 1

/-! ## Classes -/

def classNames : List String :=
  ["alnum", "alpha", "ascii", "blank", "cntrl", "digit", "graph", "lower", "print", "punct",
    "space", "upper", "word", "xdigit"]

/-- Reads a named class after its bracket: whether it is negated, and what follows it. -/
def readNamedClass : List Char → Option (Bool × List Char)
  | ':' :: text =>
    let negated := text.head? = some '^'
    let text := if negated then text.drop 1 else text
    let name := text.takeWhile (· != ':')
    match text.drop name.length with
    | ':' :: ']' :: rest =>
      if classNames.contains (String.ofList name) then some (negated, rest) else none
    | _ => none
  | _ => none

/-- Reads one end of a range in a class, which is no character if it is a class itself. -/
def readMember (mode : Mode) : List Char → Option (Option Char × List Char)
  | [] => none
  | '\\' :: text => do
    match ← readEscape mode text with
    | (.char c, rest) => if mode.unicode || c.toNat < 0x80 then some (some c, rest) else none
    | (.anyOf, rest) => some (none, rest)
    | (.place, _) => none
  | c :: rest => if mode.unicode || c.toNat < 0x80 then some (some c, rest) else none

/-- Skips a character, a class or a range in a class. A hyphen before the end of the class or before
another one makes no range. -/
def skipMember (mode : Mode) (text : List Char) : Option (List Char) := do
  let (first, rest) ← readMember mode text
  match mode.skip rest with
  | [] => none
  | '-' :: after =>
    match mode.skip after with
    | ']' :: _ => return '-' :: after
    | '-' :: _ => return '-' :: after
    | after =>
      let (last, rest) ← readMember mode after
      match first, last with
      | some a, some b => if a ≤ b then some rest else none
      | _, _ => none
  | rest => return rest

/-- Skips the mark of a negated class, which reaches beyond ASCII. -/
def skipNegation (mode : Mode) (text : List Char) : Option (List Char) :=
  match mode.skip text with
  | '^' :: rest => if mode.unicode then some (mode.skip rest) else none
  | text => some text

/-- How deep a class is, from the depths of the members of its last operand and of all operands
before. -/
def classDepth (operands : Option Nat) (members : List Nat) : Nat :=
  match operands with
  | none => rowDepth members
  | some depth => max depth (rowDepth members) + 1

/-- Reads a class up to its closing bracket, and gives its depth. At its start hyphens stand for
themselves, and so does a closing bracket that comes first. -/
def readClass (mode : Mode) : (limit : Nat) → (start : Bool) → (operands : Option Nat) →
    (members : List Nat) → List Char → Option (Nat × List Char)
  | 0, _, _, _, _ => none
  | limit + 1, start, operands, members, text =>
    match mode.skip text with
    | [] => none
    | c :: rest =>
      if start ∧ c = '-' then readClass mode limit true operands (0 :: members) rest
      else if c = ']' then
        if start ∧ members = [] then readClass mode limit false operands [0] rest
        else some (classDepth operands members + 1, rest)
      else if c = '[' then
        match readNamedClass rest with
        | some (negated, rest) =>
          if negated && !mode.unicode then none
          else readClass mode limit false operands (0 :: members) rest
        | none => do
          let (depth, rest) ← readClass mode limit true none [] (← skipNegation mode rest)
          readClass mode limit false operands (depth :: members) rest
      else if (c = '&' ∨ c = '-' ∨ c = '~') ∧ rest.head? = some c then
        readClass mode limit false (some (classDepth operands members)) [] (rest.drop 1)
      else do
        readClass mode limit false operands (0 :: members) (← skipMember mode (c :: rest))

/-! ## Groups -/

inductive Opening where
  /-- Flags for the rest of the group around it, and no group of its own. -/
  | flags (mode : Mode)
  | group (mode : Mode)
  | named (name : List Char)
  deriving DecidableEq, Repr

/-- Reads flags up to a colon or a closing parenthesis, which is given. A flag comes once, and
those after the only hyphen are switched off. -/
def readFlags (seen : List Char) (mode : Mode) : List Char → Option (Mode × Char × List Char)
  | [] => none
  | c :: rest =>
    if c = ':' ∨ c = ')' then
      if seen.head? = some '-' ∨ (c = ')' ∧ seen = []) then none else some (mode, c, rest)
    else if seen.contains c then none
    else
      let on := !seen.contains '-'
      if c = 'x' then readFlags (c :: seen) { mode with spaced := on } rest
      else if c = 'u' then readFlags (c :: seen) { mode with unicode := on } rest
      else if ['-', 'i', 'm', 's', 'U', 'R'].contains c then readFlags (c :: seen) mode rest
      else none

def isNameStart (c : Char) : Bool := c == '_' || Text.isAlphabetic c

def isNamePart (c : Char) : Bool :=
  c == '_' || c == '.' || c == '[' || c == ']' || Text.isAlphanumeric c

def readName (text : List Char) : Option (Opening × List Char) :=
  let name := text.takeWhile (· != '>')
  match name, text.drop name.length with
  | first :: more, '>' :: rest =>
    if isNameStart first && more.all isNamePart then some (.named name, rest) else none
  | _, _ => none

def readOpening (mode : Mode) (text : List Char) : Option (Opening × List Char) :=
  match mode.skip text with
  | '?' :: 'P' :: '<' :: rest => readName rest
  | '?' :: '<' :: rest => readName rest
  | '?' :: rest => do
    let (mode, mark, rest) ← readFlags [] mode rest
    return (if mark = ')' then .flags mode else .group mode, rest)
  | text => some (.group mode, text)

/-! ## Patterns -/

structure Frame where
  /-- The mode that holds again after the group. -/
  outside : Mode := {}
  /-- The depths of the alternatives before the current one. -/
  branches : List Nat := []
  /-- The depths of the parts of the current alternative, last first. -/
  parts : List Nat := []

def Frame.depth (frame : Frame) : Nat := rowDepth (rowDepth frame.parts :: frame.branches)

def Frame.add (frame : Frame) (depth : Nat) : Frame := { frame with parts := depth :: frame.parts }

/-- Reads a pattern to its end, and gives its depth. What is read last may be `repeatable`; `names`
are those of the groups so far, and `around` the groups around the current one, innermost first. -/
def readParts : (limit : Nat) → (mode : Mode) → (names : List (List Char)) → (repeatable : Bool) →
    Frame → (around : List Frame) → List Char → Option Nat
  | 0, _, _, _, _, _, _ => none
  | limit + 1, mode, names, repeatable, frame, around, text =>
    match mode.skip text with
    | [] => if around.isEmpty then some frame.depth else none
    | '(' :: rest => do
      match ← readOpening mode rest with
      | (.flags inner, rest) => readParts limit inner names false (frame.add 0) around rest
      | (.group inner, rest) =>
        readParts limit inner names false { outside := mode } (frame :: around) rest
      | (.named name, rest) =>
        if names.contains name then none
        else readParts limit mode (name :: names) false { outside := mode } (frame :: around) rest
    | ')' :: rest =>
      match around with
      | [] => none
      | outer :: around =>
        readParts limit frame.outside names true (outer.add (frame.depth + 1)) around rest
    | '|' :: rest =>
      let branches := rowDepth frame.parts :: frame.branches
      readParts limit mode names false { frame with branches, parts := [] } around rest
    | '[' :: rest => do
      let (depth, rest) ← readClass mode rest.length true none [] (← skipNegation mode rest)
      readParts limit mode names true (frame.add depth) around rest
    | '\\' :: rest => do
      let (_, rest) ← readEscape mode rest
      readParts limit mode names true (frame.add 0) around rest
    | c :: rest =>
      if c = '?' ∨ c = '*' ∨ c = '+' then
        match frame.parts with
        | [] => none
        | depth :: parts =>
          let rest := if rest.head? = some '?' then rest.drop 1 else rest
          if repeatable then
            readParts limit mode names true { frame with parts := (depth + 1) :: parts } around rest
          else none
      else if c = '\x7b' ∨ (c = '.' ∧ !mode.unicode) then none
      else readParts limit mode names true (frame.add 0) around rest

def maxDepth : Nat := 250

def isPattern (text : List Char) : Bool :=
  (readParts (text.length + 1) {} [] false {} [] text).any (· ≤ maxDepth)

end AttackSurface.Log.Pattern
