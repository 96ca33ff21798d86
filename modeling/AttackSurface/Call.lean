import AttackSurface.ErrorCode
import AttackSurface.Text.Search

/-!
Calls: the functions or files of a program under analysis.

A call is known by its `identity` alone. At function granularity that is the name, followed by a
space and the signature when there is one; at file granularity it is the signature.
-/
namespace AttackSurface

/-- The platform a program runs on, which decides the library its calls may belong to. -/
inductive Environment where
  | c
  | android
  deriving DecidableEq, Repr, Inhabited

/-- The unit of analysis that a node of a call graph stands for. -/
inductive Granularity where
  | function
  | file
  deriving DecidableEq, Repr, Inhabited

inductive UnknownLabel where
  | granularity (text : String)
  | environment (text : String)
  deriving DecidableEq, Repr

instance : Coded UnknownLabel where
  code
    | .granularity _ => .unsupportedGranularity
    | .environment _ => .call
  message
    | .granularity text => "Unsupported granularity: " ++ text
    | .environment text => "Unsupported environment: " ++ text

namespace Environment

def label : Environment → String
  | .c => "c"
  | .android => "android"

/-- Reads a label, in ASCII letters of any case. -/
def ofLabel (text : String) : Except UnknownLabel Environment :=
  if text.toList.map Char.toLower = "c".toList then .ok .c
  else if text.toList.map Char.toLower = "android".toList then .ok .android
  else .error (.environment text)

end Environment

namespace Granularity

def label : Granularity → String
  | .function => "function"
  | .file => "file"

/-- Reads a label as it is written, in lower case. -/
def ofLabel (text : String) : Except UnknownLabel Granularity :=
  if text = "function" then .ok .function
  else if text = "file" then .ok .file
  else .error (.granularity text)

end Granularity

/-- A function or a file. The signature is the path of the defining file, or the class of a
method; it is empty when unknown. -/
structure Call where
  name : String
  signature : String := ""
  environment : Environment := .c
  granularity : Granularity := .function
  deriving DecidableEq, Repr, Inhabited

namespace Call

def ofFile (path : String) (environment : Environment := .c) : Call :=
  ⟨"", path, environment, .file⟩

def identity (call : Call) : String :=
  match call.granularity with
  | .file => call.signature
  | .function => if call.signature = "" then call.name else call.name ++ " " ++ call.signature

/-- How a call is shown to people: methods as `Class.method`, all else by identity. -/
def display (call : Call) : String :=
  match call.environment, call.granularity with
  | .android, .function => call.signature ++ "." ++ call.name
  | _, _ => call.identity

def isNameOnly (call : Call) : Bool := call.signature = ""

def withSignature (call : Call) (signature : String) : Call := { call with signature }

def file? (call : Call) : Option Call :=
  match call.granularity with
  | .file => some call
  | .function =>
    if call.signature = "" then none else some (ofFile call.signature call.environment)

def at? (call : Call) : Granularity → Option Call
  | .function => some call
  | .file => call.file?

/-- The package of a method: its class without the last dotted part. Other calls have none. -/
def package (call : Call) : String :=
  match call.environment with
  | .c => ""
  | .android =>
    match Text.beforeLast? '.' call.signature.toList with
    | some start => String.ofList start
    | none => call.signature

def order (a b : Call) : Ordering := compare a.identity b.identity

end Call

end AttackSurface
