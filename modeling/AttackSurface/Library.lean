import AttackSurface.Call
import AttackSurface.Library.C
import AttackSurface.Library.Android

/-!
Which calls belong to the platform's library, and what they do to their caller.

C library functions are known by a name without a signature, framework methods by the package of
their class. Files never belong to a library. A library call is no node of a call graph: it marks
its caller instead.
-/
namespace AttackSurface

def Library.Android.isFramework (className : String) : Bool :=
  packages.any fun package => (Text.after? package.toList className.toList).isSome

namespace Call

/-- Could the call be a C library function? A file or a signature rules it out. -/
def isBareFunction (call : Call) : Bool :=
  call.granularity = .function && call.isNameOnly

def isFrameworkMethod (call : Call) : Bool :=
  call.granularity = .function && Library.Android.isFramework call.signature

/-- Does a table list the method, by its name or with its class, simple or in full? -/
def isListedMethod (table : List String) (call : Call) : Bool :=
  let simpleClass := String.ofList (Text.afterLast '.' call.signature.toList)
  table.contains call.name || table.contains (simpleClass ++ "." ++ call.name) ||
    table.contains (call.signature ++ "." ++ call.name)

/-- Does the call bring data in, so that its caller is an entry point? -/
def isInput (call : Call) : Bool :=
  match call.environment with
  | .c => call.isBareFunction && Library.C.inputs.contains call.name
  | .android => call.isFrameworkMethod && call.isListedMethod Library.Android.inputs

/-- Does the call send data out, so that its caller is an exit point? -/
def isOutput (call : Call) : Bool :=
  match call.environment with
  | .c => call.isBareFunction && Library.C.outputs.contains call.name
  | .android => call.isFrameworkMethod && call.isListedMethod Library.Android.outputs

def isDangerous (call : Call) : Bool :=
  match call.environment with
  | .c => call.isBareFunction && Library.C.dangerous.contains call.name
  | .android => false

def inLibrary (call : Call) : Bool :=
  match call.environment with
  | .c =>
    call.isBareFunction &&
      (Library.C.functions.contains call.name || Library.C.inputs.contains call.name ||
        Library.C.outputs.contains call.name || Library.C.dangerous.contains call.name)
  | .android => call.isFrameworkMethod

end Call

end AttackSurface
