import AttackSurface.JavaCalls.Line
import AttackSurface.Source
import AttackSurface.Trace

/-! Listings of java-callgraph. Lines about classes, and those about other packages than the
application's, are passed over. -/
namespace AttackSurface.JavaCalls

/-- Is the line about methods, and does it mention one of the packages? Without packages, every
such line is wanted. -/
def isWanted (packages : List String) (line : String) : Bool :=
  (Text.after? ['M', ':'] line.toList).isSome &&
    (packages.isEmpty || packages.any fun package => Text.occurs package.toList line.toList)

def trace (packages : List String) (lines : List String) : Trace :=
  let wanted := (lines.zipIdx 1).filter fun line => isWanted packages line.1
  { events := wanted.filterMap fun (line, _) =>
      match readLine line with
      | .ok (caller, callee) => some (.call caller callee)
      | .error _ => none
    errors := wanted.filterMap fun (line, number) =>
      match readLine line with
      | .ok _ => none
      | .error e => some (e.atLine number) }

def load {α : Type} (files : FileTree) (source : Source) (packages : List String := [])
    (options : Options := {}) : Except LoadError (CallGraph α) :=
  (source.allLines files).map fun lines =>
    .ofTrace source.describe .javacg options (trace packages lines)

end AttackSurface.JavaCalls
