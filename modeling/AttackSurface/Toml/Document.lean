import AttackSurface.Toml.Lexical
import AttackSurface.Toml.Word

/-! TOML documents: values, the statements made of them, and the table that they define. -/
namespace AttackSurface.Toml

def scanSimple : Scan Value := fun text =>
  if text.head? = some '"' ∨ text.head? = some '\'' then
    (scanString text).map fun (content, rest) => (.string content, rest)
  else
    let (word, rest) := takeWord text
    (ofWord? word).map fun value => (value, rest)

def scanItems (item : Scan Value) : (limit : Nat) → Scan (List Value)
  | 0 => fun _ => none
  | limit + 1 => fun text =>
    match skipLayout false text with
    | ']' :: rest => some ([], rest)
    | start => do
      let (value, rest) ← item start
      match skipLayout false rest with
      | ',' :: rest =>
        let (values, rest) ← scanItems item limit rest
        return (value :: values, rest)
      | ']' :: rest => return ([value], rest)
      | _ => none

def scanPair (item : Scan Value) : Scan ((List String × String) × Value) := fun text => do
  let (key, rest) ← scanKey text
  match rest with
  | '=' :: rest =>
    let (value, rest) ← item (skipSpaces rest)
    return ((key, value), rest)
  | _ => none

def scanPairs (item : Scan Value) : (limit : Nat) → Entries → Scan Entries
  | 0, _ => fun _ => none
  | limit + 1, entries => fun text => do
    let (((path, key), value), rest) ← scanPair item text
    let entries ← entries.insert path key value
    match skipSpaces rest with
    | ',' :: rest => scanPairs item limit entries rest
    | '}' :: rest => return (entries, rest)
    | _ => none

/-- A value in which arrays and inline tables nest at most `depth` deep. -/
def scanValue : (depth : Nat) → Scan Value
  | 0 => scanSimple
  | depth + 1 => fun text =>
    match text with
    | '[' :: rest =>
      (scanItems (scanValue depth) (rest.length + 1) rest).map fun (values, rest) =>
        (.array values, rest)
    | '{' :: rest =>
      match skipSpaces rest with
      | '}' :: rest => some (.table .inline [], rest)
      | start =>
        (scanPairs (scanValue depth) (rest.length + 1) [] start).map fun (entries, rest) =>
          (.table .inline entries, rest)
    | _ => scanSimple text

/-- A document so far: its table, and the path of the table that the last header opened. -/
structure Document where
  root : Entries := []
  current : List String := []
  deriving Inhabited

namespace Document

def addPair (doc : Document) (path : List String) (key : String) (value : Value) :
    Option Document :=
  (doc.root.change (·.insert path key value) doc.current).map fun root => { doc with root }

def addHeader (doc : Document) (inArray : Bool) (path : List String) (key : String) :
    Option Document :=
  let opened := if inArray then Entries.openElement key else Entries.openTable key
  (doc.root.change opened path).map fun root => { root, current := path ++ [key] }

def addStatement (doc : Document) (line : List Char) : Option (Document × List Char) :=
  match line with
  | [] => some (doc, [])
  | '#' :: _ => some (doc, line)
  | '\n' :: _ => some (doc, line)
  | '\r' :: _ => some (doc, line)
  | '[' :: '[' :: rest => do
    let ((path, key), rest) ← scanKey rest
    match rest with
    | ']' :: ']' :: rest => return (← doc.addHeader true path key, rest)
    | _ => none
  | '[' :: rest => do
    let ((path, key), rest) ← scanKey rest
    match rest with
    | ']' :: rest => return (← doc.addHeader false path key, rest)
    | _ => none
  | _ => do
    let (((path, key), value), rest) ← scanPair (scanValue depthLimit) line
    return (← doc.addPair path key value, rest)

def addLines : (limit : Nat) → Document → List Char → Option Document
  | 0, _, _ => none
  | limit + 1, doc, text => do
    let (doc, rest) ← doc.addStatement (skipSpaces text)
    match skipToLineEnd rest with
    | [] => return doc
    | rest => addLines limit doc (← lineBreak? rest)

end Document

/-- Reads a document. A byte order mark at its start does not count. -/
def read? (text : String) : Option Entries :=
  let content := match text.toList with
    | '\ufeff' :: rest => rest
    | content => content
  (Document.addLines (content.length + 1) {} content).map (·.root)

end AttackSurface.Toml
