import AttackSurface.Surface
import AttackSurface.Proofs.Graph.Built
import AttackSurface.Proofs.Graph.Reach
import Mathlib.Algebra.Field.Rat
import Mathlib.Algebra.Order.Field.Basic
import Mathlib.Algebra.Order.Ring.Rat
import Mathlib.Data.List.Perm.Subperm
import Mathlib.Order.Bounds.Basic

/-! Descendants and ancestors. Searching from the node of a call lists, sorted and each once, the
other calls that a route leads to, or that have a route here. A search never lists the whole graph,
as it leaves out the call where it starts. -/
namespace AttackSurface

variable {edges : List Edge} {direction : Direction} {start slot hops n : Nat}

theorem shortest_iff : Shortest edges direction start n slot ↔
    IsLeast {hops | Path edges direction start hops slot} n :=
  ⟨fun h => ⟨h.path, fun _ hpath => h.least hpath⟩, fun h => ⟨h.1, fun hpath => h.2 hpath⟩⟩

theorem shortest_backward :
    Shortest edges .backward start n slot ↔ Shortest edges .forward slot n start := by
  simp only [shortest_iff, path_backward]

namespace CallGraph

variable {α : Type} {g : CallGraph α} {node : Node α} {u v call : Call} {mark : Mark}

/-- A path of so many edges leads from the node of one call to that of the other. -/
def Route (g : CallGraph α) (hops : Nat) (u v : Call) : Prop :=
  ∃ start slot, g.slot? u = some start ∧ g.slot? v = some slot ∧
    Path g.edges .forward start hops slot

def HasDescendant (g : CallGraph α) (u v : Call) : Prop :=
  ∃ calls, g.descendants u = .ok calls ∧ v ∈ calls

def HasAncestor (g : CallGraph α) (u v : Call) : Prop :=
  ∃ calls, g.ancestors u = .ok calls ∧ v ∈ calls

/-- The calls that a search from a slot comes to, in no particular order. -/
def callsBeyond (g : CallGraph α) (direction : Direction) (start : Nat) : List Call :=
  ((g.reach direction start).filter (· ≠ start)).filterMap g.callAt?

theorem route_iff (hu : g.slot? u = some start) (hv : g.slot? v = some slot) :
    g.Route hops u v ↔ Path g.edges .forward start hops slot := by
  simp [Route, hu, hv]

theorem reached_of_node? (hu : g.node? u = some node) (direction : Direction) :
    g.reached direction u = .ok (sortCalls (g.callsBeyond direction node.slot)) := by
  rw [reached, require_eq_ok.2 hu]
  rfl

theorem exists_node?_of_hasMark (hmark : g.hasMark u mark) : ∃ node, g.node? u = some node := by
  cases hu : g.node? u with
  | none => simp [hasMark, attrs?, hu] at hmark
  | some node => exact ⟨node, rfl⟩

theorem share_bounds {part whole : Nat} (h : part < whole) :
    0 ≤ (part : Rat) / whole ∧ (part : Rat) / whole < 1 := by
  have hwhole : (0 : Rat) < whole := Nat.cast_pos.2 (Nat.zero_lt_of_lt h)
  exact ⟨div_nonneg (Nat.cast_nonneg part) hwhole.le, (div_lt_one hwhole).2 (Nat.cast_lt.2 h)⟩

namespace WellFormed

variable (h : g.WellFormed)

include h

theorem exists_node? (hu : g.contains u) : ∃ node, g.node? u = some node := by
  obtain ⟨slot, hslot⟩ := Option.isSome_iff_exists.1 hu
  obtain ⟨node, -, -, hnode⟩ := h.node?_of_slot? hslot
  exact ⟨node, hnode⟩

theorem slot?_of_node?_eq_some (hu : g.node? u = some node) : g.slot? u = some node.slot := by
  obtain ⟨hn, hi⟩ := h.node?_eq_some.1 hu
  rw [← slot?_congr hi]
  exact h.slot?_of_mem hn

theorem contains_of_mem (hu : u ∈ g.calls) : g.contains u := by
  rw [contains, h.isSome_slot?]
  exact List.mem_map_of_mem hu

/-! ## What a search comes to -/

theorem mem_callsBeyond : call ∈ g.callsBeyond direction start ↔
    ∃ node ∈ g.nodes, node.call = call ∧ node.slot ≠ start ∧
      ∃ hops, Path g.edges direction start hops node.slot := by
  simp only [callsBeyond, List.mem_filterMap, List.mem_filter, decide_eq_true_eq, mem_reach,
    h.callAt?_eq_some, exists_path_iff]
  constructor
  · rintro ⟨_, ⟨hreach, hother⟩, node, hn, rfl, rfl⟩
    exact ⟨node, hn, rfl, hother, hreach⟩
  · rintro ⟨node, hn, rfl, hother, hreach⟩
    exact ⟨node.slot, ⟨hreach, hother⟩, node, hn, rfl, rfl⟩

theorem nodup_filterMap_callAt? {slots : List Nat} (hslots : slots.Pairwise (· ≠ ·)) :
    ((slots.filterMap g.callAt?).map (·.identity)).Nodup := by
  apply List.pairwise_map.2
  refine hslots.filterMap _ fun a b hne u hu v hv hi => hne ?_
  have ha := h.slot?_of_callAt? hu
  have hb := h.slot?_of_callAt? hv
  rw [slot?_congr hi, hb] at ha
  exact (Option.some.inj ha).symm

theorem nodup_callsBeyond (direction : Direction) (start : Nat) :
    ((g.callsBeyond direction start).map (·.identity)).Nodup :=
  h.nodup_filterMap_callAt? ((g.nodup_reach direction start).filter _)

theorem length_callsBeyond_lt (hstart : start ∈ g.slots) (direction : Direction) :
    (g.callsBeyond direction start).length < g.nodes.length := by
  have hself : start ∈ g.reach direction start := mem_reach.2 .refl
  calc
    _ ≤ ((g.reach direction start).filter (· ≠ start)).length := List.length_filterMap_le ..
    _ < (g.reach direction start).length :=
      List.length_filter_lt_length_iff_exists.2 ⟨start, hself, by simp⟩
    _ ≤ g.slots.length :=
      ((g.nodup_reach direction start).subperm (h.reach_subset hstart)).length_le
    _ = g.nodes.length := List.length_map ..

/-! ## Descendants and ancestors -/

/-- Sorted and each once, a search lists the other calls that a path leads to. -/
theorem reached_sorted (hu : g.node? u = some node) (direction : Direction) :
    ∃ calls, g.reached direction u = .ok calls ∧ calls.Pairwise (·.identity < ·.identity) ∧
      ∀ v, v ∈ calls ↔ v ∈ g.calls ∧ v.identity ≠ u.identity ∧
        ∃ hops slot, g.slot? v = some slot ∧ Path g.edges direction node.slot hops slot := by
  refine ⟨_, reached_of_node? hu direction, pairwise_sortCalls (h.nodup_callsBeyond ..), ?_⟩
  intro v
  rw [mem_sortCalls, h.mem_callsBeyond]
  have hslot := h.slot?_of_node?_eq_some hu
  have hother {other : Node α} (ho : other ∈ g.nodes) :
      other.slot ≠ node.slot ↔ other.call.identity ≠ u.identity := by
    rw [not_iff_not, ← h.slot?_eq_slot? hslot, h.slot?_of_mem ho, Option.some.injEq]
  constructor
  · rintro ⟨other, ho, rfl, hne, hops, hpath⟩
    exact ⟨List.mem_map_of_mem ho, (hother ho).1 hne, hops, other.slot, h.slot?_of_mem ho, hpath⟩
  · rintro ⟨hv, hne, hops, slot, hslot, hpath⟩
    obtain ⟨other, ho, rfl⟩ := List.mem_map.1 hv
    rw [h.slot?_of_mem ho, Option.some.injEq] at hslot
    exact ⟨other, ho, rfl, (hother ho).2 hne, hops, hslot ▸ hpath⟩

theorem descendants_sorted (hu : g.contains u) :
    ∃ below, g.descendants u = .ok below ∧ below.Pairwise (·.identity < ·.identity) ∧
      ∀ v, v ∈ below ↔ v ∈ g.calls ∧ v.identity ≠ u.identity ∧ ∃ hops, g.Route hops u v := by
  obtain ⟨node, hnode⟩ := h.exists_node? hu
  obtain ⟨below, hbelow, hsorted, hmem⟩ := h.reached_sorted hnode .forward
  refine ⟨below, hbelow, hsorted, fun v => ?_⟩
  simp only [hmem, Route, h.slot?_of_node?_eq_some hnode, Option.some.injEq, exists_and_left,
    exists_eq_left']

theorem ancestors_sorted (hu : g.contains u) :
    ∃ above, g.ancestors u = .ok above ∧ above.Pairwise (·.identity < ·.identity) ∧
      ∀ v, v ∈ above ↔ v ∈ g.calls ∧ v.identity ≠ u.identity ∧ ∃ hops, g.Route hops v u := by
  obtain ⟨node, hnode⟩ := h.exists_node? hu
  obtain ⟨above, habove, hsorted, hmem⟩ := h.reached_sorted hnode .backward
  refine ⟨above, habove, hsorted, fun v => ?_⟩
  simp only [hmem, path_backward, Route, h.slot?_of_node?_eq_some hnode, Option.some.injEq,
    exists_and_left, exists_eq_left']

theorem hasDescendant_iff (hu : u ∈ g.calls) : g.HasDescendant u v ↔
    v ∈ g.calls ∧ v.identity ≠ u.identity ∧ ∃ hops, g.Route hops u v := by
  obtain ⟨below, hbelow, -, hmem⟩ := h.descendants_sorted (h.contains_of_mem hu)
  rw [← hmem, HasDescendant, hbelow]
  simp

theorem hasAncestor_iff (hu : u ∈ g.calls) : g.HasAncestor u v ↔
    v ∈ g.calls ∧ v.identity ≠ u.identity ∧ ∃ hops, g.Route hops v u := by
  obtain ⟨above, habove, -, hmem⟩ := h.ancestors_sorted (h.contains_of_mem hu)
  rw [← hmem, HasAncestor, habove]
  simp

theorem hasDescendant_iff_reaches {u v : Node α} (hu : u ∈ g.nodes) (hv : v ∈ g.nodes) :
    g.HasDescendant u.call v.call ↔
      v ≠ u ∧ Relation.ReflTransGen (Leads g.edges .forward) u.slot v.slot := by
  have hcall : v.call ∈ g.calls := List.mem_map_of_mem hv
  rw [h.hasDescendant_iff (List.mem_map_of_mem hu), and_iff_right hcall]
  simp only [route_iff (h.slot?_of_mem hu) (h.slot?_of_mem hv), exists_path_iff]
  refine and_congr_left fun _ => not_congr ⟨h.eq_of_identity hv hu, ?_⟩
  rintro rfl
  rfl

theorem exists_share (hmark : g.hasMark u mark) (direction : Direction) :
    ∃ share : Rat, (g.reached direction u).map
      (fun calls => (calls.length : Rat) / (g.nodes.length : Rat)) = .ok share ∧
        0 ≤ share ∧ share < 1 := by
  obtain ⟨node, hnode⟩ := exists_node?_of_hasMark hmark
  have hlt := h.length_callsBeyond_lt (mem_slots_of_mem (h.node?_eq_some.1 hnode).1) direction
  rw [reached_of_node? hnode]
  refine ⟨_, rfl, share_bounds ?_⟩
  rwa [sortCalls, length_sortedBy]

/-- Searching from a slot finds each slot once, exactly those that a path leads to, or for a search
backward those that a path leads from, and the length of a shortest such path. So descendants are
the other calls that have a route from here, in ascending order, and ancestors those that have one
to here. What a surface point reaches is a proper part of the graph. -/
theorem search_finds_shortest :
    (∀ direction start, ((g.distances direction start).map (·.1)).Nodup) ∧
    (∀ start slot,
      ((∃ n, (slot, n) ∈ g.distances .forward start) ↔
        ∃ hops, Path g.edges .forward start hops slot) ∧
      ((∃ n, (slot, n) ∈ g.distances .backward start) ↔
        ∃ hops, Path g.edges .forward slot hops start) ∧
      ∀ n,
        ((slot, n) ∈ g.distances .forward start ↔
          IsLeast {hops | Path g.edges .forward start hops slot} n) ∧
        ((slot, n) ∈ g.distances .backward start ↔
          IsLeast {hops | Path g.edges .forward slot hops start} n)) ∧
    (∀ u, g.contains u → ∃ below above, g.descendants u = .ok below ∧ g.ancestors u = .ok above ∧
      below.Pairwise (·.identity < ·.identity) ∧ above.Pairwise (·.identity < ·.identity) ∧
      ∀ v,
        (v ∈ below ↔ v ∈ g.calls ∧ v.identity ≠ u.identity ∧ ∃ hops, g.Route hops u v) ∧
        (v ∈ above ↔ v ∈ g.calls ∧ v.identity ≠ u.identity ∧ ∃ hops, g.Route hops v u)) ∧
    (∀ u ∈ g.calls, ∀ v ∈ g.calls, g.HasDescendant u v ↔ g.HasAncestor v u) ∧
    (∀ u, g.hasMark u .entry →
      ∃ share, g.entryReachability u = .ok share ∧ 0 ≤ share ∧ share < 1) ∧
    ∀ u, g.hasMark u .exit →
      ∃ share, g.exitReachability u = .ok share ∧ 0 ≤ share ∧ share < 1 := by
  refine ⟨g.nodup_reach, fun start slot => ?_, fun u hu => ?_, fun u hu v hv => ?_,
    fun u hmark => ?_, fun u hmark => ?_⟩
  · have hfound (direction : Direction) : (∃ n, (slot, n) ∈ g.distances direction start) ↔
        ∃ hops, Path g.edges direction start hops slot := by
      rw [exists_path_iff, ← mem_reach, reach]
      simp
    refine ⟨hfound .forward, ?_, fun n => ⟨?_, ?_⟩⟩
    · rw [hfound]
      simp only [path_backward]
    · rw [mem_distances, shortest_iff]
    · rw [mem_distances, shortest_backward, shortest_iff]
  · obtain ⟨below, hbelow, hsorted, hmem⟩ := h.descendants_sorted hu
    obtain ⟨above, habove, hsorted', hmem'⟩ := h.ancestors_sorted hu
    exact ⟨below, above, hbelow, habove, hsorted, hsorted', fun v => ⟨hmem v, hmem' v⟩⟩
  · rw [h.hasDescendant_iff hu, h.hasAncestor_iff hv]
    simp only [hu, hv, true_and, ne_comm]
  · rw [entryReachability, if_pos hmark]
    exact h.exists_share hmark .forward
  · rw [exitReachability, if_pos hmark]
    exact h.exists_share hmark .backward

end WellFormed

/-- An entry point two edges away from `h`, on a way past a loop; a detour has three. The slot of
`f` is that of a node removed before. -/
def pastLoop : CallGraph Rat :=
  (((((((empty.addEdge { name := "gone" } { name := "main" }).removeNode { name := "gone" }).addEdge
    { name := "main" } { name := "f" }).addEdge { name := "f" } { name := "f" }).addEdge
      { name := "f" } { name := "g" }).addEdge { name := "g" } { name := "h" }).addEdge
        { name := "f" } { name := "h" }).addNode { name := "main" } { marks := { entry := true } }

theorem built_pastLoop : Built pastLoop :=
  ((((((((Built.empty "").addEdge _ _ _).removeNode _).addEdge _ _ _).addEdge _ _ _).addEdge
    _ _ _).addEdge _ _ _).addEdge _ _ _).addNode _ _

theorem search_of_pastLoop : pastLoop.WellFormed ∧
    IsLeast {hops | Path pastLoop.edges .forward 1 hops 3} 2 ∧
    pastLoop.HasAncestor { name := "h" } { name := "main" } ∧
    ∃ share, pastLoop.entryReachability { name := "main" } = .ok share ∧
      0 ≤ share ∧ share < 1 := by
  have h := built_pastLoop.wellFormed
  obtain ⟨-, hfound, -, hdual, hentry, -⟩ := h.search_finds_shortest
  have hbelow : pastLoop.descendants { name := "main" } =
      .ok [{ name := "f" }, { name := "g" }, { name := "h" }] := by decide +kernel
  refine ⟨h, ((hfound 1 3).2.2 2).1.1 (by decide +kernel), ?_, hentry _ (by decide +kernel)⟩
  apply (hdual { name := "main" } (by decide +kernel) { name := "h" } (by decide +kernel)).1
  exact ⟨_, hbelow, by decide⟩

end CallGraph

end AttackSurface
