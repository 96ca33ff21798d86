import AttackSurface.Call
import AttackSurface.Producer
import AttackSurface.Text.Blank

/-!
Lines of java-callgraph that tell of a call between methods: the caller as `M:class:method`, a
space, and the callee as `(kind)class:method`.
-/
namespace AttackSurface.JavaCalls

def invocationKinds : List Char := ['M', 'I', 'O', 'S']

def afterMark? : List Char → Option (List Char)
  | 'M' :: ':' :: rest => some rest
  | '(' :: kind :: ')' :: rest => if invocationKinds.contains kind then some rest else none
  | _ => none

def readHalf (half : String) : Except LineError Call :=
  let text := Text.trim half.toList
  let failure (fault : LineFault) : LineError :=
    { producer := .javacg, fault, text := String.ofList text }
  match afterMark? text with
  | none => .error (failure .malformed)
  | some body =>
    match Text.splitAtFirst ':' (Text.trim body) with
    | none => .error (failure (.missing "method"))
    | some (_, []) => .error (failure .noName)
    | some (className, method) =>
      .ok
        { name := String.ofList method
          signature := String.ofList className
          environment := .android }

/-- Reads a line as its caller and its callee. Line breaks at its end do not matter. -/
def readLine (line : String) : Except LineError (Call × Call) :=
  let text := Text.dropLineBreaks line.toList
  match Text.splitAtFirst ' ' text with
  | none => .error { producer := .javacg, fault := .malformed, text := String.ofList text }
  | some (caller, callee) => do
    let caller ← readHalf (String.ofList caller)
    let callee ← readHalf (String.ofList callee)
    return (caller, callee)

end AttackSurface.JavaCalls
