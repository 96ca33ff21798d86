/-!
TOML values, and the rules by which the parts of a document may define tables.

A table remembers how it came to be, because that decides what may still be added to it: a table
is opened by a header once, a dotted key adds only to tables that dotted keys made, and an inline
table is complete.
-/
namespace AttackSurface.Toml

inductive TableKind where
  /-- In braces. -/
  | inline
  /-- By a header of its own. -/
  | headed
  /-- By the header of a table below it. -/
  | implied
  /-- By a dotted key. -/
  | dotted
  deriving DecidableEq, Repr

inductive Value where
  | string (text : String)
  | integer (n : Int)
  | float (x : Float)
  | boolean (b : Bool)
  | dateTime (text : String)
  | array (items : List Value)
  | table (kind : TableKind) (entries : List (String × Value))
  /-- An array of tables: the entries of the last one, and those of the others, last first. -/
  | tables (last : List (String × Value)) (others : List (List (String × Value)))
  deriving Inhabited

/-- The entries of a table, each key once. -/
abbrev Entries := List (String × Value)

namespace Entries

def find? (entries : Entries) (key : String) : Option Value := entries.lookup key

def put (entries : Entries) (key : String) (value : Value) : Entries :=
  match entries with
  | [] => [(key, value)]
  | (other, old) :: rest =>
    if other = key then (key, value) :: rest else (other, old) :: put rest key value

/-- Puts a value under a dotted key: the tables on the `path` have to be open to dotted keys, the
last of them made by one, and the key new. -/
def insert (entries : Entries) : (path : List String) → (key : String) → Value → Option Entries
  | [], key, value =>
    match entries.find? key with
    | none => some (entries.put key value)
    | some _ => none
  | first :: path, key, value =>
    match entries.find? first with
    | none => do
      let inner ← insert [] path key value
      return entries.put first (.table .dotted inner)
    | some (.table .dotted inner) => do
      let inner ← insert inner path key value
      return entries.put first (.table .dotted inner)
    | some (.table .implied inner) => do
      if path = [] then none
      let inner ← insert inner path key value
      return entries.put first (.table .implied inner)
    | some (.tables last others) => do
      if path = [] then none
      let last ← insert last path key value
      return entries.put first (.tables last others)
    | some _ => none

/-- Changes the table that a header's `path` leads to. Tables missing on the way are implied. -/
def change (f : Entries → Option Entries) (entries : Entries) : List String → Option Entries
  | [] => f entries
  | first :: path =>
    match entries.find? first with
    | none => do
      let inner ← change f [] path
      return entries.put first (.table .implied inner)
    | some (.table .inline _) => none
    | some (.table kind inner) => do
      let inner ← change f inner path
      return entries.put first (.table kind inner)
    | some (.tables last others) => do
      let last ← change f last path
      return entries.put first (.tables last others)
    | some _ => none

def openTable (key : String) (entries : Entries) : Option Entries :=
  match entries.find? key with
  | none => some (entries.put key (.table .headed []))
  | some (.table .implied inner) => some (entries.put key (.table .headed inner))
  | some _ => none

def openElement (key : String) (entries : Entries) : Option Entries :=
  match entries.find? key with
  | none => some (entries.put key (.tables [] []))
  | some (.tables last others) => some (entries.put key (.tables [] (last :: others)))
  | some _ => none

end Entries

end AttackSurface.Toml
