import AttackSurface.Text.Hexadecimal

/-!
The smallest parts of a TOML document: white space, comments, strings and keys.

A scanner takes a part off the start of a text and gives what follows, or nothing if the part is
not there.
-/
namespace AttackSurface.Toml

abbrev Scan (α : Type) := List Char → Option (α × List Char)

/-- Characters allowed in comments and on one line of a string: all but controls, and the tab. -/
def isPlain (c : Char) : Bool := c == '\t' || (0x20 ≤ c.toNat && c.toNat != 0x7f)

def isSpace (c : Char) : Bool := c == ' ' || c == '\t'

def skipSpaces (text : List Char) : List Char := text.dropWhile isSpace

def lineBreak? : List Char → Option (List Char)
  | '\n' :: rest => some rest
  | '\r' :: '\n' :: rest => some rest
  | _ => none

def skipToLineEnd (text : List Char) : List Char :=
  match skipSpaces text with
  | '#' :: rest => rest.dropWhile isPlain
  | rest => rest

def skipLayout (inComment : Bool) : List Char → List Char
  | [] => []
  | c :: rest =>
    if c = '\n' ∨ (c = '\r' ∧ rest.head? = some '\n') then skipLayout false rest
    else if inComment then if isPlain c then skipLayout true rest else c :: rest
    else if isSpace c then skipLayout false rest
    else if c = '#' then skipLayout true rest
    else c :: rest

/-! ## Strings -/

inductive QuoteState where
  | plain
  | escape
  /-- In the digits of a code point, of which `left + 1` are missing. -/
  | code (left value : Nat)
  /-- After a backslash that has to end its line. -/
  | lineEnd
  /-- After a line ended by a backslash: white space is skipped. -/
  | nextLine
  deriving DecidableEq, Repr

def escaped? : Char → Option Char
  | 'b' => some '\x08'
  | 't' => some '\t'
  | 'n' => some '\n'
  | 'f' => some '\x0c'
  | 'r' => some '\r'
  | '"' => some '"'
  | '\\' => some '\\'
  | _ => none

/-- At most two quotes more, which belong to a string on several lines before its delimiter. -/
def endQuotes (quote : Char) : List Char → List Char × List Char
  | a :: b :: rest =>
    if a = quote then if b = quote then ([a, b], rest) else ([a], b :: rest) else ([], a :: b :: rest)
  | [a] => if a = quote then ([a], []) else ([], [a])
  | [] => ([], [])

def closes (quote : Char) (text : List Char) : Bool := [quote, quote].isPrefixOf text

/-- The rest of a string in double quotes, on one line or on several, up to its delimiter. -/
def quotedRest (multi : Bool) : QuoteState → Scan (List Char)
  | _, [] => none
  | .escape, c :: rest =>
    if c = 'u' then quotedRest multi (.code 3 0) rest
    else if c = 'U' then quotedRest multi (.code 7 0) rest
    else if multi ∧ isSpace c then quotedRest multi .lineEnd rest
    else if multi ∧ c = '\n' then quotedRest multi .nextLine rest
    else if multi ∧ c = '\r' ∧ rest.head? = some '\n' then quotedRest multi .lineEnd rest
    else do
      let meant ← escaped? c
      let (text, rest) ← quotedRest multi .plain rest
      return (meant :: text, rest)
  | .code left value, c :: rest => do
    let digit ← Text.hexValue? c
    match left with
    | left + 1 => quotedRest multi (.code left (16 * value + digit)) rest
    | 0 =>
      let meant ← Text.codePoint? (16 * value + digit)
      let (text, rest) ← quotedRest multi .plain rest
      return (meant :: text, rest)
  | .lineEnd, c :: rest =>
    if c = '\n' then quotedRest multi .nextLine rest
    else if isSpace c ∨ (c = '\r' ∧ rest.head? = some '\n') then quotedRest multi .lineEnd rest
    else none
  | state, c :: rest =>
    if state = .nextLine ∧
        (isSpace c ∨ c = '\n' ∨ (c = '\r' ∧ rest.head? = some '\n')) then
      quotedRest multi .nextLine rest
    else if c = '"' ∧ !multi then some ([], rest)
    else if c = '"' ∧ closes '"' rest then
      let (quotes, rest) := endQuotes '"' (rest.drop 2)
      some (quotes, rest)
    else if c = '\\' then quotedRest multi .escape rest
    else if multi ∧ c = '\r' ∧ rest.head? = some '\n' then quotedRest multi .plain rest
    else if isPlain c ∨ (multi ∧ c = '\n') then do
      let (text, rest) ← quotedRest multi .plain rest
      return (c :: text, rest)
    else none

/-- The rest of a string in single quotes, on one line or on several, up to its delimiter. -/
def literalRest (multi : Bool) : Scan (List Char)
  | [] => none
  | c :: rest =>
    if c = '\'' ∧ !multi then some ([], rest)
    else if c = '\'' ∧ closes '\'' rest then
      let (quotes, rest) := endQuotes '\'' (rest.drop 2)
      some (quotes, rest)
    else if multi ∧ c = '\r' ∧ rest.head? = some '\n' then literalRest multi rest
    else if isPlain c ∨ (multi ∧ c = '\n') then do
      let (text, rest) ← literalRest multi rest
      return (c :: text, rest)
    else none

/-- A string of any form. A line break right after the delimiter of one on several lines does not
count. -/
def scanString : Scan String := fun text =>
  let body := match text with
    | '"' :: '"' :: '"' :: rest => quotedRest true .plain ((lineBreak? rest).getD rest)
    | '"' :: rest => quotedRest false .plain rest
    | '\'' :: '\'' :: '\'' :: rest => literalRest true ((lineBreak? rest).getD rest)
    | '\'' :: rest => literalRest false rest
    | _ => none
  body.map fun (content, rest) => (String.ofList content, rest)

/-! ## Keys -/

def isBareKeyChar (c : Char) : Bool := c.isAlphanum || c == '_' || c == '-'

/-- One part of a key: bare, or a string on one line. -/
def scanKeyPart : Scan String := fun text =>
  match text with
  | '"' :: rest => (quotedRest false .plain rest).map fun (part, rest) => (String.ofList part, rest)
  | '\'' :: rest => (literalRest false rest).map fun (part, rest) => (String.ofList part, rest)
  | _ =>
    let part := text.takeWhile isBareKeyChar
    if part = [] then none else some (String.ofList part, text.drop part.length)

/-- Tables and arrays nest, and keys have parts, at most this deep. -/
def depthLimit : Nat := 79

def scanKeyParts : (limit : Nat) → Scan (List String)
  | 0 => fun _ => none
  | limit + 1 => fun text => do
    let (part, rest) ← scanKeyPart (skipSpaces text)
    match skipSpaces rest with
    | '.' :: rest =>
      let (parts, rest) ← scanKeyParts limit rest
      return (part :: parts, rest)
    | rest => return ([part], rest)

def scanKey : Scan (List String × String) := fun text => do
  let (parts, rest) ← scanKeyParts depthLimit text
  let last ← parts.getLast?
  return ((parts.dropLast, last), rest)

end AttackSurface.Toml
