import AttackSurface.Graph.Basic
import AttackSurface.Library

/-!
From the events that a listing tells of to a call graph.

Every call becomes an edge from the caller to the callee and one back. A library function is no
node: a call of it marks the caller, and a call from it is dropped.
-/
namespace AttackSurface

inductive Event where
  | node (call : Call)
  | call (caller callee : Call)
  deriving DecidableEq, Repr

/-- The events of a listing and the lines that could not be read, both in order. -/
structure Trace where
  events : List Event := []
  errors : List LineError := []
  deriving DecidableEq, Repr

/-- What the user knows about the program, and the granularity of the graph. -/
structure Options where
  granularity : Granularity := .function
  defenses : List Call := []
  vulnerabilities : List Call := []
  deriving DecidableEq, Repr, Inhabited

/-- Is the call in the list, at the granularity of the entry? -/
def isListed (list : List Call) (call : Call) : Bool :=
  list.any fun entry => (call.at? entry.granularity).any fun seen => seen.identity = entry.identity

namespace Options

def isDefense (options : Options) (call : Call) : Bool := isListed options.defenses call

def isVulnerable (options : Options) (call : Call) : Bool := isListed options.vulnerabilities call

end Options

variable {α : Type}

/-- What a listing of `producer` tells of a call that occurs in it. A profile is evidence that the
call was run, in one more profile. -/
def observed (producer : Producer) (options : Options) (call : Call) : NodeAttrs α where
  marks :=
    { tested := producer = .gprof
      defense := options.isDefense call
      vulnerable := options.isVulnerable call }
  frequency := if producer = .gprof then some 1 else none

def observedCaller (producer : Producer) (options : Options) (caller callee : Call) : NodeAttrs α :=
  let seen : NodeAttrs α := observed producer options caller
  { seen with
    marks :=
      { seen.marks with
        entry := callee.isInput
        exit := callee.isOutput
        dangerous := callee.isDangerous } }

/-- What a call tells of the callee, unless that is a library function. -/
def observedCallee? (producer : Producer) (options : Options) (callee : Call) :
    Option (NodeAttrs α) :=
  if callee.inLibrary then none else some (observed producer options callee)

namespace CallGraph

def record (producer : Producer) (options : Options) (g : CallGraph α) : Event → CallGraph α
  | .node call =>
    if call.inLibrary then g
    else
      match call.at? options.granularity with
      | none => g
      | some node => g.addNode node (observed producer options call)
  | .call caller callee =>
    if caller.inLibrary then g
    else
      match caller.at? options.granularity with
      | none => g
      | some callerNode =>
        let g := g.addNode callerNode (observedCaller producer options caller callee)
        match observedCallee? producer options callee, callee.at? options.granularity with
        | some attrs, some calleeNode =>
          ((g.addNode calleeNode attrs).addEdge callerNode calleeNode (.call producer)).addEdge
            calleeNode callerNode (.returning producer)
        | _, _ => g

def ofEvents (source : String) (producer : Producer) (options : Options) (events : List Event) :
    CallGraph α :=
  events.foldl (record producer options) (empty source)

def ofTrace (source : String) (producer : Producer) (options : Options) (trace : Trace) :
    CallGraph α :=
  { ofEvents source producer options trace.events with errors := trace.errors }

end CallGraph

end AttackSurface
