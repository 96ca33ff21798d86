import AttackSurface.Cflow.Line
import AttackSurface.Source
import AttackSurface.Trace

/-!
Call trees printed by GNU cflow.

A line calls the lines nested right below it; in a reverse tree it is called by them. Lines that
can not be read are left out of the tree.
-/
namespace AttackSurface.Cflow

def isBlankLine (line : String) : Bool := line.toList.all Text.isBlank

def treeLines (lines : List String) : List Line :=
  (lines.filter fun line => !isBlankLine line).filterMap fun line => (readLine line).toOption

def lineErrors (lines : List String) : List LineError :=
  (lines.zipIdx 1).filterMap fun (line, number) =>
    if isBlankLine line then none
    else
      match readLine line with
      | .ok _ => none
      | .error e => some (e.atLine number)

/-- The calls that a line is nested in, innermost first, from those of the line before it. -/
def enclosing (parents : List Call) (previous : Option Line) (line : Line) : List Call :=
  match previous with
  | none => parents
  | some before =>
    if before.level < line.level then before.call :: parents
    else parents.drop (before.level - line.level)

def nestedFrom (parents : List Call) (previous : Option Line) : List Line → List (Option Call × Line)
  | [] => []
  | line :: rest =>
    let parents := enclosing parents previous line
    (parents.head?, line) :: nestedFrom parents (some line) rest

def nested (tree : List Line) : List (Option Call × Line) := nestedFrom [] none tree

def events (reverse : Bool) (tree : List Line) : List Event :=
  (nested tree).filterMap fun (parent, line) =>
    parent.map fun parent =>
      if reverse then .call line.call parent else .call parent line.call

def trace (reverse : Bool) (lines : List String) : Trace :=
  ⟨events reverse (treeLines lines), lineErrors lines⟩

def load {α : Type} (files : FileTree) (source : Source) (reverse : Bool) (options : Options := {}) :
    Except LoadError (CallGraph α) :=
  (source.allLines files).map fun lines =>
    CallGraph.ofTrace source.describe .cflow options (trace reverse lines)

end AttackSurface.Cflow
