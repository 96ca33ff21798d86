import AttackSurface.Graph.Basic

/-!
Reconciling two graphs of one program, and merging them.

A profile often knows a function by its name alone, where a static listing knows the file too. A
node without a signature takes that of its namesake in the other graph when there is exactly one.
-/
namespace AttackSurface.CallGraph

variable {α : Type}

/-- The calls of a name, unless the name is empty. -/
def namesakes (g : CallGraph α) (name : String) : List Call :=
  if name = "" then [] else g.calls.filter fun call => call.name = name

/-- What a call without a signature is called by its only namesake in `reference`. -/
def located? (reference : CallGraph α) (call : Call) : Option Call :=
  if call.isNameOnly then
    match reference.namesakes call.name with
    | [namesake] =>
      if namesake.isNameOnly then none else some (call.withSignature namesake.signature)
    | _ => none
  else none

def redirect (old new place : Nat) : Nat := if place = old then new else place

def addRedirected (g : CallGraph α) (old new : Nat) (edges : List Edge) : CallGraph α :=
  edges.foldl
    (fun g edge => g.addEdgeBetween (redirect old new edge.source) (redirect old new edge.target)
      edge.attrs) g

/-- Gives the node of `call` the identity of `renamed`, with its attributes and edges. A node that
has this identity already absorbs it. -/
def rename (g : CallGraph α) (call renamed : Call) : CallGraph α :=
  match g.node? call with
  | none => g
  | some node =>
    let moved := (g.removeNode call).addNode renamed node.attrs
    match moved.slot? renamed with
    | none => moved
    | some slot => moved.addRedirected node.slot slot (g.edgesAt node.slot)

def relocations (g reference : CallGraph α) : List (Call × Call) :=
  g.calls.filterMap fun call => (reference.located? call).map (call, ·)

/-- Locates every call that can be located in `reference`, and counts them. -/
def reconcileCounted (g reference : CallGraph α) : CallGraph α × Nat :=
  (g.relocations reference).foldl
    (fun (g, count) (call, renamed) => (g.rename call renamed, count + 1)) (g, 0)

def reconcile (g reference : CallGraph α) : CallGraph α := (g.reconcileCounted reference).1

/-- Merges a static graph with a profile of the same program: each is reconciled with the other,
the profile last, and both are united. -/
def merge (static profile : CallGraph α) : CallGraph α :=
  let static' := static.reconcile profile
  let profile' := profile.reconcile static'
  let both := (empty ("cflow: " ++ static.source ++ " - gprof: " ++ profile.source)).union static'
  { both.union profile' with errors := static.errors ++ profile.errors }

end AttackSurface.CallGraph
