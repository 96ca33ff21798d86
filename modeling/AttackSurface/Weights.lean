import AttackSurface.Graph.Basic

/-!
Weights of edges by where they stem from.

A call weighs more than a return, and an edge that a profile saw less than one that only a static
listing tells of. An edge that is both a call and a return counts as a call.
-/
namespace AttackSurface

structure Weights where
  cflowCall : Nat := 100
  cflowReturn : Nat := 50
  gprofCall : Nat := 75
  gprofReturn : Nat := 25
  deriving DecidableEq, Repr

/-- The weight of an edge. One that is neither a call nor a return weighs like a static call. -/
def Weights.weigh (weights : Weights) (attrs : EdgeAttrs) : Nat :=
  if attrs.isCall then if attrs.gprof then weights.gprofCall else weights.cflowCall
  else if attrs.isReturn then if attrs.gprof then weights.gprofReturn else weights.cflowReturn
  else weights.cflowCall

def CallGraph.assignWeights {α : Type} (g : CallGraph α) (weights : Weights) : CallGraph α :=
  { g with
    edges := g.edges.map fun edge =>
      { edge with attrs := { edge.attrs with weight := some (weights.weigh edge.attrs) } } }

end AttackSurface
