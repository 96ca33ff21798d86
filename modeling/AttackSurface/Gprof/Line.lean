import AttackSurface.Call
import AttackSurface.Producer
import AttackSurface.Text.Blank
import AttackSurface.Text.DecimalDigit
import AttackSurface.Text.Hexadecimal
import AttackSurface.Text.WordChar

/-!
Lines of a call graph block in a report of GNU gprof. The function stands in a column of fixed
position: its name, and where known its place as `(path:line @ address)`.
-/
namespace AttackSurface.Gprof

/-- The byte of a line at which the function starts. -/
def nameColumn : Nat := 45

def isNameChar (c : Char) : Bool := Text.isWordChar c || c == '.'

def startsWithAddress : List Char → Bool
  | ':' :: text =>
    let address := (Text.afterRun? Text.isDecimalDigit text).bind fun rest =>
      (Text.after? [' ', '@', ' '] rest).bind (Text.afterRun? Text.isHexDigit)
    address.any fun rest => rest.head? = some ')'
  | _ => false

/-- The path of a place that stands right at the start. It reaches up to the last address. -/
def pathHere? (text : List Char) : Option (List Char) :=
  match (Text.after? ['('] text).bind
      (Text.longestBefore (fun c => !Text.isBlank c) startsWithAddress) with
  | some (c :: path) => some (c :: path)
  | _ => none

/-- Reads a line. Line breaks at its end do not matter. -/
def readLine (line : String) : Except LineError Call :=
  let text := Text.dropLineBreaks line.toList
  let field := Text.trim ((Text.dropBytes nameColumn text).getD [])
  let failure (fault : LineFault) : LineError :=
    { producer := .gprof, fault, text := String.ofList text }
  if field = [] then .error (failure (.missing "name"))
  else
    match field.takeWhile isNameChar with
    | [] => .error (failure .malformed)
    | name =>
      let path := (Text.firstMatch pathHere? field).getD []
      .ok { name := String.ofList name, signature := String.ofList path }

end AttackSurface.Gprof
