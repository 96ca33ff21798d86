import AttackSurface.Call
import AttackSurface.Producer
import AttackSurface.Text.Blank
import AttackSurface.Text.DecimalDigit
import AttackSurface.Text.WordChar

/-!
Lines of a tree printed by GNU cflow: four spaces for each level, the name of a function with
parentheses, and where known its declaration and place in angle brackets.
-/
namespace AttackSurface.Cflow

structure Line where
  call : Call
  level : Nat
  recursive : Bool
  deriving DecidableEq, Repr

/-- Counts the groups of four spaces at the start, and gives what follows them. -/
def indentation : List Char → Nat × List Char
  | ' ' :: ' ' :: ' ' :: ' ' :: rest => ((indentation rest).1 + 1, (indentation rest).2)
  | text => (0, text)

def nameHere? (text : List Char) : Option (List Char) :=
  let word := text.takeWhile Text.isWordChar
  if word ≠ [] ∧ (Text.after? ['(', ')'] (text.drop word.length)).isSome then some word else none

def startsWithLineNumber : List Char → Bool
  | ':' :: text => (Text.afterRun? Text.isDecimalDigit text).any fun rest => rest.head? = some '>'
  | _ => false

/-- The path of a place that is announced right at the start. It reaches up to the last line
number. -/
def pathHere? (text : List Char) : Option (List Char) :=
  match Text.after? ['a', 't'] text with
  | some (c :: path) =>
    if Text.isBlank c then Text.longestBefore (· != '\n') startsWithLineNumber path else none
  | _ => none

/-- Does the text end with the mark of a recursive call, or point back to an earlier line? -/
def isMarkedRecursive (text : List Char) : Bool :=
  "(R):".toList.isSuffixOf text || Text.occurs "(recursive: see".toList text

/-- Reads a line. Line breaks at its end do not matter. -/
def readLine (line : String) : Except LineError Line :=
  let text := Text.dropLineBreaks line.toList
  let (level, rest) := indentation text
  let content := Text.trim rest
  match Text.firstMatch nameHere? content with
  | none => .error { producer := .cflow, fault := .noName, text := String.ofList text }
  | some name =>
    let path := (Text.firstMatch pathHere? content).getD []
    .ok
      { call := { name := String.ofList name, signature := String.ofList path }
        level
        recursive := isMarkedRecursive content }

end AttackSurface.Cflow
