import AttackSurface.Graph.Basic
import AttackSurface.Scalar

/-!
Ranks of the nodes of a call graph by a random walk.

The walk follows the edges out of a node in proportion to their weights; an edge without a weight
counts as 1. With the probability left over by the damping factor, and always at a node without
weighted edges, it starts anew at a node drawn by the restart distribution, which favours entry and
exit points. The rank of a node is the share of time spent there, found by iterating from the
uniform distribution until the total change of a step is below the tolerance.
-/
namespace AttackSurface

structure RankParams (α : Type) where
  /-- How much an entry or exit point weighs in the restart distribution. -/
  primary : α
  /-- How much any other node weighs there. -/
  secondary : α
  /-- The probability of following an edge. -/
  damping : α
  tolerance : α
  maxIterations : Nat

def RankParams.standard {α : Type} [OfScientific α] : RankParams α where
  primary := 10000.0
  secondary := 1.0
  damping := 0.85
  tolerance := 1e-6
  maxIterations := 100

def RankParams.restartWeight {α β : Type} (params : RankParams α) (node : Node β) : α :=
  if node.attrs.marks.entry || node.attrs.marks.exit then params.primary else params.secondary

structure Chain (α : Type) (n : Nat) where
  /-- How likely each place is to be restarted at. -/
  restart : Vector α n
  /-- The places that lead to each place, in ascending order, and the share of them that goes
  there. -/
  incoming : Vector (List (Fin n × α)) n
  /-- The places that lead nowhere. -/
  dangling : List (Fin n)

namespace Chain

variable {α : Type} [Scalar α] {n : Nat}

def step (chain : Chain α n) (damping : α) (rank : Vector α n) : Vector α n :=
  let lost := Scalar.sum (chain.dangling.map fun place => rank[place])
  let restarting := damping * lost + (Scalar.ofNat 1 - damping)
  Vector.ofFn fun place =>
    chain.incoming[place].foldl (fun mass (source, share) => mass + damping * rank[source] * share)
      (restarting * chain.restart[place])

def change (next rank : Vector α n) : α :=
  Scalar.sum ((List.finRange n).map fun place => Scalar.abs (next[place] - rank[place]))

def uniform (α : Type) [Scalar α] (n : Nat) : Vector α n :=
  Vector.replicate n (Scalar.ofNat 1 / Scalar.ofNat n)

structure Run (α : Type) (n : Nat) where
  rank : Vector α n
  iterations : Nat
  converged : Bool

def iterate (chain : Chain α n) (damping tolerance : α) : (fuel done : Nat) → Vector α n → Run α n
  | 0, done, rank => ⟨rank, done, false⟩
  | fuel + 1, done, rank =>
    let next := chain.step damping rank
    if Scalar.less (change next rank) tolerance then ⟨next, done + 1, true⟩
    else chain.iterate damping tolerance fuel (done + 1) next

end Chain

namespace CallGraph

variable {α β : Type} [Scalar α]

/-- The restart distribution: the weights of the nodes over their sum, or a uniform one if the sum
is no positive number. -/
def restartOf (g : CallGraph β) (params : RankParams α) : Vector α g.nodes.length :=
  let total := Scalar.sum (g.nodes.map params.restartWeight)
  if Scalar.less (Scalar.ofNat 0) total && Scalar.isFinite total then
    Vector.ofFn fun place => params.restartWeight g.nodes[place] / total
  else Chain.uniform α _

def walkWeight (edge : Edge) : α := Scalar.ofNat (edge.attrs.weight.getD 1)

def outgoingWeights (g : CallGraph β) : Vector α g.nodes.length :=
  Vector.ofFn fun place => Scalar.sum ((g.edgesFrom g.nodes[place].slot).map walkWeight)

def place? (g : CallGraph β) (slot : Nat) : Option (Fin g.nodes.length) :=
  g.nodes.findFinIdx? fun node => node.slot = slot

def chain (g : CallGraph β) (params : RankParams α) : Chain α g.nodes.length :=
  let totals : Vector α g.nodes.length := g.outgoingWeights
  let leads (place : Fin g.nodes.length) : Bool := Scalar.less (Scalar.ofNat 0) totals[place]
  { restart := g.restartOf params
    incoming := Vector.ofFn fun place =>
      (sortedBy (fun a b => a.source ≤ b.source) (g.edgesTo g.nodes[place].slot)).filterMap
        fun edge => (g.place? edge.source).bind fun source =>
          if leads source then some (source, walkWeight edge / totals[source]) else none
    dangling := (List.finRange _).filter fun place => !leads place }

def rankRun (g : CallGraph β) (params : RankParams α) : Chain.Run α g.nodes.length :=
  (g.chain params).iterate params.damping params.tolerance params.maxIterations 0
    (Chain.uniform α _)

def ranks (g : CallGraph β) (params : RankParams α) : List (Call × α) :=
  (g.nodes.map (·.call)).zip (g.rankRun params).rank.toList

def rankOf (g : CallGraph β) (params : RankParams α) (call : Call) : Except QueryError α :=
  (g.require call).bind fun node =>
    match (g.ranks params).find? fun ranked => ranked.1.identity = node.call.identity with
    | some ranked => .ok ranked.2
    | none => .error (.notANode call.display)

def assignRanks (g : CallGraph α) (params : RankParams α) (name : String) : CallGraph α :=
  { g with
    nodes := (g.nodes.zip (g.rankRun params).rank.toList).map fun (node, rank) =>
      { node with attrs := node.attrs.setScore name rank } }

end CallGraph

end AttackSurface
