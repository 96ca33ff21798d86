import AttackSurface.Decimal.Shortest
import AttackSurface.Log.Level
import AttackSurface.Log.Pattern
import AttackSurface.Text.Search

/-!
Directives: which records are let through, and up to which level.

A directive is about all records, or about those of a target, or of spans with a name, a field, or
a field of some value. It is written as `target[span{field=value}]=level`, each part of which may be
missing.
-/
namespace AttackSurface.Log

/-! ## Fields -/

inductive FieldValue where
  | boolean (b : Bool)
  | natural (n : Nat)
  | integer (n : Int)
  | float (x : Float)
  | pattern (text : String)

namespace FieldValue

def integer? (text : List Char) : Option Int :=
  let (negative, digits) := Decimal.takeSign text
  if Decimal.isDigits digits then
    let n : Int := Decimal.digitsValue digits
    let n := if negative then -n else n
    if Int64.minValue.toInt ≤ n ∧ n ≤ Int64.maxValue.toInt then some n else none
  else none

/-- Reads a truth value or a number, or else a pattern. -/
def read? (text : List Char) : Option FieldValue :=
  if text = "true".toList then some (.boolean true)
  else if text = "false".toList then some (.boolean false)
  else
    ((Decimal.natural? UInt64.size text).map natural).or <|
      ((integer? text).map integer).or <|
        ((Decimal.float? text).map float).or <|
          if Pattern.isPattern text then some (.pattern (String.ofList text)) else none

def render : FieldValue → String
  | .boolean b => if b then "true" else "false"
  | .natural n => toString n
  | .integer n => toString n
  | .float x => String.ofList (Decimal.render x)
  | .pattern text => text

def rank : FieldValue → Nat
  | .boolean _ => 0
  | .float x => if x.isNaN then 2 else 1
  | .natural _ => 3
  | .integer _ => 4
  | .pattern _ => 5

def order (a b : FieldValue) : Ordering :=
  match a, b with
  | .boolean a, .boolean b => compare a b
  | .natural a, .natural b => compare a b
  | .integer a, .integer b => compare a b
  | .float x, .float y =>
    if x < y then .lt
    else if y < x then .gt
    else compare (rank a) (rank b)
  | .pattern a, .pattern b => compare a b
  | a, b => compare a.rank b.rank

end FieldValue

/-- A field that spans have to have, and its value if that matters. -/
structure FieldFilter where
  name : String
  value : Option FieldValue := none

namespace FieldFilter

def read? (text : List Char) : Option FieldFilter :=
  match text with
  | [] => none
  | text =>
    match Text.splitAtFirst '=' text with
    | none => some { name := String.ofList text }
    | some (name, value) =>
      (FieldValue.read? (value.takeWhile (· != '='))).map fun value =>
        { name := String.ofList name, value := some value }

def render (field : FieldFilter) : String :=
  match field.value with
  | none => field.name
  | some value => field.name ++ "=" ++ value.render

def order (a b : FieldFilter) : Ordering :=
  (compare a.value.isSome b.value.isSome).then <| (compare a.name b.name).then <|
    match a.value, b.value with
    | some a, some b => a.order b
    | _, _ => .eq

end FieldFilter

/-! ## Directives -/

/-- Lets records through up to a level, if they are from the target, inside a span of the name, and
inside one with the field. -/
structure Directive where
  target : Option String := none
  span : Option String := none
  field : Option FieldFilter := none
  level : Level

namespace Directive

/-! Blanks at the ends of a directive do not count when its parts are told apart. Each part is then
cut from the directive as it stands, at the bytes where it was found. -/

/-- Reads the level that starts at a byte; if nothing does, all records are meant. -/
def levelAt? (whole : List Char) (start : Nat) : Option Level :=
  match Text.dropBytes start whole with
  | none => none
  | some [] => some .trace
  | some word => Level.ofText? word

def endAt? (whole : List Char) (start : Nat) : List Char → Option Level
  | [] => some .trace
  | '=' :: _ => levelAt? whole (start + 1)
  | _ => none

def spanAt? (whole : List Char) (target : Option String) (start : Nat) (text : List Char) :
    Option Directive := do
  let name := text.takeWhile fun c => c != ']' && c != '\x7b'
  let stop := start + Text.byteLength name
  let span ← Text.bytesBetween start stop whole
  match text.drop name.length with
  | ']' :: rest =>
    let level ← endAt? whole (stop + 1) rest
    return { target, span := some (String.ofList span), level }
  | _ :: rest =>
    let fieldText := rest.takeWhile (· != '\x7d')
    let fieldStop := stop + 1 + Text.byteLength fieldText
    let field ← FieldFilter.read? (← Text.bytesBetween (stop + 1) fieldStop whole)
    match rest.drop fieldText.length with
    | '\x7d' :: ']' :: rest =>
      let level ← endAt? whole (fieldStop + 2) rest
      let span := if span = [] then none else some (String.ofList span)
      return { target, span, field := some field, level }
    | _ => none
  | [] => none

def startsWord (c : Char) : Bool := Text.isAlphanumeric c || c == '_' || c == '-' || c == ':'

/-- Reads a directive. A lone word is a level if it can be, or else a target. -/
def read? (whole : List Char) : Option Directive :=
  match Text.trim whole with
  | [] => none
  | '[' :: rest => spanAt? whole none 1 rest
  | first :: rest =>
    if !startsWord first then none
    else
      let text := first :: rest
      let word := text.takeWhile fun c => c != '=' && c != '['
      let stop := Text.byteLength word
      match text.drop word.length with
      | [] =>
        match Level.ofText? whole with
        | some level => some { level }
        | none => some { target := some (String.ofList whole), level := .trace }
      | mark :: rest => do
        let target := String.ofList (← Text.bytesBetween 0 stop whole)
        if mark = '[' then spanAt? whole (some target) (stop + 1) rest
        else return { target := some target, level := ← levelAt? whole (stop + 1) }

def scope (directive : Directive) : String :=
  let field := match directive.field with
    | none => ""
    | some field => "\x7b" ++ field.render ++ "\x7d"
  let span :=
    if directive.span.isNone ∧ directive.field.isNone then ""
    else "[" ++ directive.span.getD "" ++ field ++ "]"
  directive.target.getD "" ++ span

def render (directive : Directive) : String :=
  if directive.target.isNone ∧ directive.span.isNone ∧ directive.field.isNone then
    directive.level.label
  else directive.scope ++ "=" ++ directive.level.label

def isAboutSpans (directive : Directive) : Bool := directive.span.isSome || directive.field.isSome

/-- Can a record be let through without a look at the spans around it? Its own fields have names
but no values yet. -/
def isAboutRecords (directive : Directive) : Bool :=
  directive.span.isNone && (directive.field.all fun field => field.value.isNone)

/-- How special a directive is: a longer target before all else, then a span, then a field. Directives
about the same thing are equal. -/
def order (a b : Directive) : Ordering :=
  (compare (a.target.map String.utf8ByteSize) (b.target.map String.utf8ByteSize)).then <|
  (compare a.span.isSome b.span.isSome).then <|
  (compare a.field.isSome b.field.isSome).then <|
  (compare a.target b.target).then <|
  (compare a.span b.span).then <|
    match a.field, b.field with
    | some a, some b => a.order b
    | _, _ => .eq

/-- Puts a directive among others, the most special first, in place of one about the same thing. -/
def insert (directive : Directive) : List Directive → List Directive
  | [] => [directive]
  | other :: rest =>
    match directive.order other with
    | .gt => directive :: other :: rest
    | .eq => directive :: rest
    | .lt => other :: insert directive rest

end Directive

end AttackSurface.Log
