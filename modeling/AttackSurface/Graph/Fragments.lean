import AttackSurface.Graph.Reach

/-!
Fragments of a call graph: its strongly connected components.

Fragments are listed so that no edge leads from one to a later one. Their order is that of a
depth-first walk which starts at ever higher slots and takes the edges of a node newest first: a
fragment comes where the walk leaves the last of its nodes.
-/
namespace AttackSurface.CallGraph

variable {α : Type}

/-- A depth-first walk: the slots it has met, and those it has left, last first. -/
structure Walk where
  met : List Nat := []
  left : List Nat := []

/-- Walks on to a slot and from there over all that it leads to, at most `depth` edges deep. -/
def walk (next : Nat → List Nat) : (depth : Nat) → Walk → Nat → Walk
  | 0, walked, _ => walked
  | depth + 1, walked, slot =>
    if walked.met.contains slot then walked
    else
      let below := (next slot).foldl (walk next depth) { walked with met := slot :: walked.met }
      { below with left := slot :: below.left }

/-- The slots in the order in which a depth-first walk over the whole graph leaves them, last
first. No path is longer than there are nodes, so the walk is never cut short. -/
def leavingOrder (g : CallGraph α) : List Nat :=
  let next slot := (g.edgesFrom slot).map (·.target)
  (g.nodes.foldl (fun walked node => walk next g.nodes.length walked node.slot) {}).left

/-- Groups slots with those that they reach and that reach them; the group of the first slot comes
last. -/
def groupMutual (g : CallGraph α) : List Nat → List (List Nat)
  | [] => []
  | slot :: rest =>
    let after := g.reach .forward slot
    let before := g.reach .backward slot
    match _h : rest.partition fun other => after.contains other && before.contains other with
    | (same, others) => groupMutual g others ++ [slot :: same]
termination_by slots => slots.length
decreasing_by
  rw [List.partition_eq_filter_filter, Prod.mk.injEq] at _h
  rw [← _h.2]
  exact Nat.lt_succ_of_le (List.length_filter_le ..)

def fragmentSlots (g : CallGraph α) : List (List Nat) := g.groupMutual g.leavingOrder

def fragments (g : CallGraph α) : List (List Call) :=
  g.fragmentSlots.map (·.filterMap g.callAt?)

def firstLongest {β : Type} : List (List β) → List β
  | [] => []
  | xs :: others =>
    let best := firstLongest others
    if best.length ≤ xs.length then xs else best

/-- Cuts the graph down to the first of its largest fragments. A graph without nodes stays as it
is. -/
def fragmentize (g : CallGraph α) : CallGraph α :=
  match g.fragmentSlots with
  | [] => g
  | fragment :: others =>
    let kept := firstLongest (fragment :: others)
    let doomed := (g.nodes.filter fun node => !kept.contains node.slot).map (·.call)
    { doomed.foldl removeNode g with
      fragmentation := some
        { count := others.length + 1
          monolithicity := (kept.length : Rat) / (g.nodes.length : Rat) } }

end AttackSurface.CallGraph
