import AttackSurface.Graph.Reach

/-!
The attack surface: what entry points lead to, and what leads to exit points.

Paths run along edges of either kind. A node is on the surface of a kind when it carries its mark;
any other node has paths from entry points, or to exit points, whose lengths say how near the
surface is.
-/
namespace AttackSurface

inductive SurfaceKind where
  | entry
  | exit
  deriving DecidableEq, Repr

namespace SurfaceKind

def mark : SurfaceKind → Mark
  | .entry => .entry
  | .exit => .exit

/-- The way from a node to the points of the surface: against the edges to entry points, along
them to exit points. -/
def outward : SurfaceKind → Direction
  | .entry => .backward
  | .exit => .forward

/-- The way from the points of the surface to the nodes they expose. -/
def inward : SurfaceKind → Direction
  | .entry => .forward
  | .exit => .backward

end SurfaceKind

inductive Standing where
  | onSurface
  /-- The points that a path connects to the node, and the mean length of the shortest paths. -/
  | connected (points : List Call) (proximity : Rat)
  | unconnected
  deriving DecidableEq, Repr

namespace Standing

def points? : Standing → Option (List Call)
  | .connected points _ => some points
  | _ => none

/-- How far the surface is on average: not at all for a node on it. -/
def proximity? : Standing → Option Rat
  | .onSurface => some 0
  | .connected _ proximity => some proximity
  | .unconnected => none

def coupling? (standing : Standing) : Option Nat := standing.points?.map List.length

end Standing

def sortCalls (calls : List Call) : List Call :=
  sortedBy (fun a b => decide (a.identity ≤ b.identity)) calls

@[simp] theorem mem_sortCalls {call : Call} {calls : List Call} :
    call ∈ sortCalls calls ↔ call ∈ calls :=
  mem_sortedBy

theorem pairwise_sortCalls {calls : List Call} (h : (calls.map (·.identity)).Nodup) :
    (sortCalls calls).Pairwise (·.identity < ·.identity) := by
  refine pairwise_sortedBy (R := fun a b : Call => a.identity < b.identity) String.lt_trans
    ((List.pairwise_map.1 h).imp fun hne => ?_)
  simp only [decide_eq_true_eq]
  refine ⟨fun hle => ?_, fun hgt => String.not_le.1 hgt⟩
  exact String.not_le.1 fun hge => hne (String.le_antisymm hle hge)

theorem sortCalls_eq_of_perm {calls others : List Call} (h : calls.Perm others)
    (hnodup : (calls.map (·.identity)).Nodup) : sortCalls calls = sortCalls others := by
  have hperm : (sortCalls calls).Perm (sortCalls others) :=
    (sortedBy_perm _ calls).trans (h.trans (sortedBy_perm _ others).symm)
  apply hperm.eq_of_pairwise _ (pairwise_sortCalls hnodup)
    (pairwise_sortCalls ((h.map _).nodup_iff.1 hnodup))
  intro a b _ _ hab hba
  exact absurd hba (String.lt_asymm hab)

namespace CallGraph

variable {α : Type}

/-- The calls of the nodes, other than that of `call`, which are reached from there, sorted. -/
def reached (g : CallGraph α) (direction : Direction) (call : Call) :
    Except QueryError (List Call) :=
  (g.require call).map fun node =>
    sortCalls (((g.reach direction node.slot).filter (· ≠ node.slot)).filterMap g.callAt?)

def descendants (g : CallGraph α) (call : Call) : Except QueryError (List Call) :=
  g.reached .forward call

def ancestors (g : CallGraph α) (call : Call) : Except QueryError (List Call) :=
  g.reached .backward call

def hasMark (g : CallGraph α) (call : Call) (mark : Mark) : Bool :=
  (g.attrs? call).any fun attrs => attrs.marks.has mark

/-- The share of the graph that an entry point leads to. -/
def entryReachability (g : CallGraph α) (call : Call) : Except QueryError Rat :=
  if g.hasMark call .entry then
    (g.descendants call).map fun calls => (calls.length : Rat) / (g.nodes.length : Rat)
  else .error (.notAnEntryPoint call.display)

/-- The share of the graph that leads to an exit point. -/
def exitReachability (g : CallGraph α) (call : Call) : Except QueryError Rat :=
  if g.hasMark call .exit then
    (g.ancestors call).map fun calls => (calls.length : Rat) / (g.nodes.length : Rat)
  else .error (.notAnExitPoint call.display)

/-- The slots that the points of one side of the surface expose, their own included. -/
def exposedSlots (g : CallGraph α) (kind : SurfaceKind) : List (List Nat) :=
  (g.nodes.filter fun node => node.attrs.marks.has kind.mark).map fun node =>
    g.reach kind.inward node.slot

/-- The calls that an entry point leads to or that lead to an exit point, sorted. -/
def attackSurface (g : CallGraph α) : List Call :=
  let exposed := g.exposedSlots .entry ++ g.exposedSlots .exit
  sortCalls ((g.nodes.filter fun node => exposed.any (·.contains node.slot)).map (·.call))

def connectedPoints (g : CallGraph α) (kind : SurfaceKind) (slot : Nat) : List (Call × Nat) :=
  (g.distances kind.outward slot).filterMap fun (other, hops) =>
    if other = slot then none
    else (g.nodeAt? other).bind fun node =>
      if node.attrs.marks.has kind.mark then some (node.call, hops) else none

/-- The lengths of the shortest paths between a call and the surface; none for a call on it. -/
def pathLengths (g : CallGraph α) (kind : SurfaceKind) (call : Call) :
    Except QueryError (List (Call × Nat)) :=
  (g.require call).map fun node =>
    if node.attrs.marks.has kind.mark then [] else g.connectedPoints kind node.slot

def standing (g : CallGraph α) (kind : SurfaceKind) (call : Call) : Except QueryError Standing :=
  (g.require call).map fun node =>
    if node.attrs.marks.has kind.mark then .onSurface
    else
      match g.connectedPoints kind node.slot with
      | [] => .unconnected
      | lengths =>
        .connected (sortCalls (lengths.map (·.1)))
          ((lengths.foldr (fun point total => point.2 + total) 0 : Nat) / (lengths.length : Rat))

end CallGraph

end AttackSurface
