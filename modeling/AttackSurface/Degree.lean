import AttackSurface.Graph.Basic

/-! How many edges enter and leave a node: its degree over all edges, its fan over calls only. -/
namespace AttackSurface

structure Degree where
  incoming : Nat
  outgoing : Nat
  deriving DecidableEq, Repr

namespace CallGraph

variable {α : Type}

def degreeAt (g : CallGraph α) (p : Edge → Bool) (slot : Nat) : Degree :=
  ⟨(g.edgesTo slot).countP p, (g.edgesFrom slot).countP p⟩

def isCallEdge (edge : Edge) : Bool := edge.attrs.isCall

def degree (g : CallGraph α) (call : Call) : Except QueryError Degree :=
  (g.require call).map fun node => g.degreeAt (fun _ => true) node.slot

def fan (g : CallGraph α) (call : Call) : Except QueryError Degree :=
  (g.require call).map fun node => g.degreeAt isCallEdge node.slot

def degrees (g : CallGraph α) : List (Call × Degree) :=
  g.nodes.map fun node => (node.call, g.degreeAt (fun _ => true) node.slot)

def fans (g : CallGraph α) : List (Call × Degree) :=
  g.nodes.map fun node => (node.call, g.degreeAt isCallEdge node.slot)

end CallGraph

end AttackSurface
