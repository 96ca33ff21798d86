import AttackSurface.Call
import AttackSurface.Graph.Attributes
import AttackSurface.Graph.SlotIndex
import AttackSurface.Graph.SlotPool
import AttackSurface.Sorting

/-!
Call graphs: calls as nodes, and directed edges between them.

A graph holds at most one node for an identity and at most one edge from one node to another; what
is added again is merged into what is there. Nodes are found through an index from identities to
slots, and listed by ascending slot. Edges are listed newest first, and so are the edges that leave
or enter one node.
-/
namespace AttackSurface

structure Node (α : Type) where
  slot : Nat
  call : Call
  attrs : NodeAttrs α

/-- An edge between the nodes in two slots, with a slot of its own. -/
structure Edge where
  slot : Nat
  source : Nat
  target : Nat
  attrs : EdgeAttrs
  deriving DecidableEq, Repr

/-- What became of a graph that was cut down to one of its fragments. -/
structure Fragmentation where
  count : Nat
  monolithicity : Rat
  deriving DecidableEq, Repr

structure CallGraph (α : Type) where
  source : String := ""
  errors : List LineError := []
  nodes : List (Node α) := []
  edges : List Edge := []
  /-- The slot of the node of each identity. -/
  index : SlotIndex := {}
  nodeSlots : SlotPool := {}
  edgeSlots : SlotPool := {}
  fragmentation : Option Fragmentation := none
  deriving Inhabited

inductive QueryError where
  | notAnEntryPoint (call : String)
  | notAnExitPoint (call : String)
  | notANode (call : String)
  deriving DecidableEq, Repr

instance : Coded QueryError where
  code
    | .notAnEntryPoint _ => .notAnEntryPoint
    | .notAnExitPoint _ => .notAnExitPoint
    | .notANode _ => .callGraph
  message
    | .notAnEntryPoint call => call ++ " is not an entry point"
    | .notAnExitPoint call => call ++ " is not an exit point"
    | .notANode call => call ++ " is not a node of the call graph"

namespace CallGraph

variable {α : Type}

/-! ## Looking up -/

def slot? (g : CallGraph α) (call : Call) : Option Nat := g.index.get? call.identity

def contains (g : CallGraph α) (call : Call) : Bool := (g.slot? call).isSome

def nodeAt? (g : CallGraph α) (slot : Nat) : Option (Node α) :=
  g.nodes.find? fun node => node.slot = slot

def node? (g : CallGraph α) (call : Call) : Option (Node α) := (g.slot? call).bind g.nodeAt?

def attrs? (g : CallGraph α) (call : Call) : Option (NodeAttrs α) := (g.node? call).map (·.attrs)

def require (g : CallGraph α) (call : Call) : Except QueryError (Node α) :=
  match g.node? call with
  | some node => .ok node
  | none => .error (.notANode call.display)

def callAt? (g : CallGraph α) (slot : Nat) : Option Call := (g.nodeAt? slot).map (·.call)

def calls (g : CallGraph α) : List Call := g.nodes.map (·.call)

def edgeBetween? (g : CallGraph α) (source target : Nat) : Option Edge :=
  g.edges.find? fun edge => edge.source = source ∧ edge.target = target

def edgeAttrs? (g : CallGraph α) (caller callee : Call) : Option EdgeAttrs := do
  let source ← g.slot? caller
  let target ← g.slot? callee
  let edge ← g.edgeBetween? source target
  return edge.attrs

/-- The edges that leave a slot, newest first. -/
def edgesFrom (g : CallGraph α) (slot : Nat) : List Edge := g.edges.filter (·.source = slot)

/-- The edges that enter a slot, newest first. -/
def edgesTo (g : CallGraph α) (slot : Nat) : List Edge := g.edges.filter (·.target = slot)

/-- The edges that leave a slot, and then the others that enter it. -/
def edgesAt (g : CallGraph α) (slot : Nat) : List Edge :=
  g.edgesFrom slot ++ (g.edgesTo slot).filter (·.source ≠ slot)

/-- All edges by ascending slot, as the calls at their ends and their attributes. -/
def links (g : CallGraph α) : List (Call × Call × EdgeAttrs) :=
  (sortedBy (fun a b => a.slot ≤ b.slot) g.edges).filterMap fun edge => do
    let source ← g.callAt? edge.source
    let target ← g.callAt? edge.target
    return (source, target, edge.attrs)

def callsWith (g : CallGraph α) (name : String) : List Call :=
  (g.nodes.filter fun node => node.attrs.has name).map (·.call)

def entryPoints (g : CallGraph α) : List Call := g.callsWith Mark.entry.label

def exitPoints (g : CallGraph α) : List Call := g.callsWith Mark.exit.label

/-! ## Changing -/

def empty (source : String := "") : CallGraph α := { source }

def updateAt (g : CallGraph α) (slot : Nat) (change : NodeAttrs α → NodeAttrs α) : CallGraph α :=
  { g with
    nodes := g.nodes.map fun node =>
      if node.slot = slot then { node with attrs := change node.attrs } else node }

def updateNode (g : CallGraph α) (call : Call) (change : NodeAttrs α → NodeAttrs α) :
    CallGraph α :=
  match g.slot? call with
  | some slot => g.updateAt slot change
  | none => g

/-- Adds a node for a call that is none. -/
def insertNode (g : CallGraph α) (call : Call) (attrs : NodeAttrs α) : CallGraph α :=
  let node : Node α := ⟨g.nodeSlots.next, call, attrs⟩
  { g with
    nodes := insertSorted (fun a b => a.slot ≤ b.slot) node g.nodes
    index := g.index.put call.identity node.slot
    nodeSlots := g.nodeSlots.take }

/-- Adds a node, with `combine` for the attributes of a node that is there already. -/
def addNodeWith (combine : NodeAttrs α → NodeAttrs α → NodeAttrs α) (g : CallGraph α) (call : Call)
    (attrs : NodeAttrs α) : CallGraph α :=
  match g.slot? call with
  | some slot => g.updateAt slot fun old => combine old attrs
  | none => g.insertNode call attrs

/-- Adds a node, or merges its attributes into those of the node that is there. -/
def addNode (g : CallGraph α) (call : Call) (attrs : NodeAttrs α := {}) : CallGraph α :=
  g.addNodeWith NodeAttrs.merge call attrs

def updateEdge (g : CallGraph α) (slot : Nat) (change : EdgeAttrs → EdgeAttrs) : CallGraph α :=
  { g with
    edges := g.edges.map fun edge =>
      if edge.slot = slot then { edge with attrs := change edge.attrs } else edge }

/-- Adds an edge between two slots that no edge joins. -/
def insertEdge (g : CallGraph α) (source target : Nat) (attrs : EdgeAttrs) : CallGraph α :=
  { g with
    edges := ⟨g.edgeSlots.next, source, target, attrs⟩ :: g.edges
    edgeSlots := g.edgeSlots.take }

/-- Adds an edge between two slots, or merges its attributes into those of the edge there. -/
def addEdgeBetween (g : CallGraph α) (source target : Nat) (attrs : EdgeAttrs) : CallGraph α :=
  match g.edgeBetween? source target with
  | some edge => g.updateEdge edge.slot fun old => old.merge attrs
  | none => g.insertEdge source target attrs

/-- Adds an edge between two calls, which become nodes if they are none. -/
def addEdge (g : CallGraph α) (caller callee : Call) (attrs : EdgeAttrs := {}) : CallGraph α :=
  let g := (g.addNode caller).addNode callee
  match g.slot? caller, g.slot? callee with
  | some source, some target => g.addEdgeBetween source target attrs
  | _, _ => g

/-- Removes the node in a slot and its edges, but not its entry in the index. The slots of the edges
come back in the order of the edges that leave, then of those that enter, and last that of the
node. -/
def removeAt (g : CallGraph α) (slot : Nat) : CallGraph α :=
  { g with
    nodes := g.nodes.filter (·.slot ≠ slot)
    edges := g.edges.filter fun edge => edge.source ≠ slot ∧ edge.target ≠ slot
    nodeSlots := g.nodeSlots.giveBack slot
    edgeSlots := (g.edgesAt slot).foldl (fun pool edge => pool.giveBack edge.slot) g.edgeSlots }

def removeNode (g : CallGraph α) (call : Call) : CallGraph α :=
  match g.slot? call with
  | some slot => { g.removeAt slot with index := g.index.erase call.identity }
  | none => g

def unionWith (combine : NodeAttrs α → NodeAttrs α → NodeAttrs α) (g other : CallGraph α) :
    CallGraph α :=
  let withNodes := other.nodes.foldl (fun g node => g.addNodeWith combine node.call node.attrs) g
  other.links.foldl (fun g (caller, callee, attrs) => g.addEdge caller callee attrs) withNodes

def union (g other : CallGraph α) : CallGraph α := g.unionWith NodeAttrs.merge other

/-- The nodes and edges of both graphs, which stem from different profiles. -/
def accumulate (g other : CallGraph α) : CallGraph α := g.unionWith NodeAttrs.accumulate other

end CallGraph

end AttackSurface
