import AttackSurface.Proofs.Graph.Descendants
import AttackSurface.Proofs.Surface
import Mathlib.Algebra.BigOperators.Group.List.Basic
import Mathlib.Order.Lattice.Nat

/-! Proximity to the surface. One search from a node measures the routes between the node and every
point of the surface: those that come from entry points, and those that go to exit points. The
proximity of a node is the mean length of the shortest of them, one for each point. -/
namespace AttackSurface.CallGraph

variable {α : Type} {g : CallGraph α} {kind : SurfaceKind} {node : Node α} {call point : Call}
  {slot place hops n : Nat} {lengths : List (Call × Nat)}

/-- A route of so many edges exposes a call to a point of the surface: it comes from an entry point,
or goes to an exit point. -/
def ExposingRoute (g : CallGraph α) (kind : SurfaceKind) (hops : Nat) (point call : Call) : Prop :=
  match kind with
  | .entry => g.Route hops point call
  | .exit => g.Route hops call point

/-- The points of the surface that a call is exposed to. -/
def ExposedTo (g : CallGraph α) (kind : SurfaceKind) (call point : Call) : Prop :=
  point ∈ g.calls ∧ g.hasMark point kind.mark ∧ ∃ hops, g.ExposingRoute kind hops point call

/-- How many edges the shortest route has that exposes a call to a point. -/
noncomputable def exposure (g : CallGraph α) (kind : SurfaceKind) (call point : Call) : Nat :=
  sInf {hops | g.ExposingRoute kind hops point call}

/-- What there is to tell of a call that is not on the surface itself. -/
structure Measures (g : CallGraph α) (kind : SurfaceKind) (call : Call) (standing : Standing)
    (lengths : List (Call × Nat)) : Prop where
  lengths_nodup : (lengths.map (·.1.identity)).Nodup
  mem_lengths : ∀ point n, (point, n) ∈ lengths ↔ point ∈ g.calls ∧ g.hasMark point kind.mark ∧
    IsLeast {hops | g.ExposingRoute kind hops point call} n
  unconnected : (∀ point, ¬ g.ExposedTo kind call point) →
    standing.points? = none ∧ standing.proximity? = none ∧ standing.coupling? = none
  connected : (∃ point, g.ExposedTo kind call point) → ∃ points,
    standing.points? = some points ∧ points.Pairwise (·.identity < ·.identity) ∧
    (∀ point, point ∈ points ↔ g.ExposedTo kind call point) ∧
    standing.coupling? = some points.length ∧
    standing.proximity? =
      some (((points.map (g.exposure kind call)).sum : Nat) / (points.length : Rat))

/-! ## Routes between a call and the surface -/

theorem isLeast_exposure (hroute : ∃ hops, g.ExposingRoute kind hops point call) :
    IsLeast {hops | g.ExposingRoute kind hops point call} (g.exposure kind call point) :=
  ⟨Nat.sInf_mem hroute, fun _ hother => Nat.sInf_le hother⟩

theorem exposure_eq (hn : IsLeast {hops | g.ExposingRoute kind hops point call} n) :
    g.exposure kind call point = n :=
  (isLeast_exposure ⟨n, hn.1⟩).unique hn

theorem shortest_outward_iff (hcall : g.slot? call = some slot)
    (hpoint : g.slot? point = some place) : Shortest g.edges kind.outward slot n place ↔
      IsLeast {hops | g.ExposingRoute kind hops point call} n := by
  cases kind with
  | entry =>
    show Shortest g.edges .backward slot n place ↔ IsLeast {hops | g.Route hops point call} n
    rw [shortest_backward, shortest_iff]
    simp only [route_iff hpoint hcall]
  | exit =>
    show Shortest g.edges .forward slot n place ↔ IsLeast {hops | g.Route hops call point} n
    rw [shortest_iff]
    simp only [route_iff hcall hpoint]

/-! ## Lengths and their mean -/

theorem mem_map_points : point ∈ lengths.map (·.1) ↔ ∃ n, (point, n) ∈ lengths := by
  simp

theorem sum_lengths (hlengths : ∀ length ∈ lengths, g.exposure kind call length.1 = length.2) :
    lengths.foldr (fun point total => point.2 + total) 0 =
      ((sortCalls (lengths.map (·.1))).map (g.exposure kind call)).sum := by
  have hperm : (sortCalls (lengths.map (·.1))).Perm (lengths.map (·.1)) := sortedBy_perm ..
  have hsame : lengths.map (g.exposure kind call ∘ (·.1)) = lengths.map (·.2) :=
    List.map_congr_left hlengths
  rw [(hperm.map _).sum_eq, List.map_map, hsame, List.sum, List.foldr_map]

theorem require_of_not_contains (h : ¬ g.contains call) :
    g.require call = .error (.notANode call.display) := by
  have hnone : g.slot? call = none := by simpa [contains] using h
  rw [require, node?, hnone]
  rfl

theorem hasMark_of_node? (hn : g.node? call = some node) (mark : Mark) :
    g.hasMark call mark = node.attrs.marks.has mark := by
  rw [hasMark, attrs?, hn, Option.map_some, Option.any_some]

namespace WellFormed

variable (h : g.WellFormed)

include h

theorem hasMark_of_mem (hn : node ∈ g.nodes) (mark : Mark) :
    g.hasMark node.call mark = node.attrs.marks.has mark :=
  hasMark_of_node? (h.node?_eq_some.2 ⟨hn, rfl⟩) mark

theorem nodup_connectedPoints (kind : SurfaceKind) (slot : Nat) :
    ((g.connectedPoints kind slot).map (·.1.identity)).Nodup := by
  have hslots : (g.distances kind.outward slot).Pairwise fun a b => a.1 ≠ b.1 :=
    List.pairwise_map.1 (g.nodup_reach kind.outward slot)
  apply List.pairwise_map.2
  refine hslots.filterMap _ fun a b hne p hp q hq hi => hne ?_
  simp only [Option.ite_none_left_eq_some, Option.bind_eq_some_iff, h.nodeAt?_eq_some,
    Option.ite_none_right_eq_some, Option.some.injEq] at hp hq
  obtain ⟨-, u, ⟨hu, hslot⟩, -, rfl⟩ := hp
  obtain ⟨-, v, ⟨hv, hslot'⟩, -, rfl⟩ := hq
  rw [← hslot, ← hslot', h.eq_of_identity hu hv hi]

/-- A search from a node that is not on the surface measures all points that expose it. -/
theorem mem_connectedPoints_iff (hn : g.node? call = some node)
    (hmark : ¬ g.hasMark call kind.mark) (point : Call) (n : Nat) :
    (point, n) ∈ g.connectedPoints kind node.slot ↔
      point ∈ g.calls ∧ g.hasMark point kind.mark ∧
        IsLeast {hops | g.ExposingRoute kind hops point call} n := by
  obtain ⟨hmem, hi⟩ := h.node?_eq_some.1 hn
  have hcall := h.slot?_of_node?_eq_some hn
  rw [h.mem_connectedPoints]
  constructor
  · rintro ⟨other, ho, -, hpoint, rfl, hshortest⟩
    rw [← h.hasMark_of_mem ho] at hpoint
    exact ⟨List.mem_map_of_mem ho, hpoint,
      (shortest_outward_iff hcall (h.slot?_of_mem ho)).1 hshortest⟩
  · rintro ⟨hcalls, hpoint, hleast⟩
    obtain ⟨other, ho, rfl⟩ := List.mem_map.1 hcalls
    -- A point is another node than one without its mark.
    have hne : other.slot ≠ node.slot := by
      intro hslot
      rw [h.eq_of_slot ho hmem hslot, hasMark, attrs?_congr hi] at hpoint
      exact hmark hpoint
    rw [h.hasMark_of_mem ho] at hpoint
    exact ⟨other, ho, hne, hpoint, rfl,
      (shortest_outward_iff hcall (h.slot?_of_mem ho)).2 hleast⟩

theorem exposedTo_iff (hn : g.node? call = some node) (hmark : ¬ g.hasMark call kind.mark)
    (point : Call) :
    g.ExposedTo kind call point ↔ ∃ n, (point, n) ∈ g.connectedPoints kind node.slot := by
  simp only [h.mem_connectedPoints_iff hn hmark, exists_and_left, ExposedTo]
  refine and_congr_right fun _ => and_congr_right fun _ => ⟨fun hroute => ?_, fun hleast => ?_⟩
  · exact ⟨_, isLeast_exposure hroute⟩
  · exact ⟨_, hleast.choose_spec.1⟩

theorem exists_measures (hn : g.node? call = some node) (hmark : ¬ g.hasMark call kind.mark) :
    ∃ standing, g.standing kind call = .ok standing ∧
      g.Measures kind call standing (g.connectedPoints kind node.slot) := by
  have hunmarked : ¬ node.attrs.marks.has kind.mark := by
    rwa [← hasMark_of_node? hn]
  have hexposed := h.exposedTo_iff hn hmark
  have hpoints := h.mem_connectedPoints_iff hn hmark
  have hnodup := h.nodup_connectedPoints kind node.slot
  simp only [standing, require_eq_ok.2 hn, Except.map, if_neg hunmarked]
  generalize g.connectedPoints kind node.slot = lengths at *
  cases lengths with
  | nil =>
    refine ⟨_, rfl, hnodup, hpoints, fun _ => ⟨rfl, rfl, rfl⟩, fun hsome => ?_⟩
    obtain ⟨point, hpoint⟩ := hsome
    simp [hexposed] at hpoint
  | cons first rest =>
    refine ⟨_, rfl, hnodup, hpoints, fun hnone => ?_, fun _ => ?_⟩
    · exact absurd ((hexposed first.1).2 ⟨first.2, List.mem_cons_self⟩) (hnone first.1)
    · have hsorted : (((first :: rest).map (·.1)).map (·.identity)).Nodup := by
        rwa [List.map_map]
      have hexposure : ∀ length ∈ first :: rest, g.exposure kind call length.1 = length.2 :=
        fun length hlength => exposure_eq ((hpoints length.1 length.2).1 hlength).2.2
      refine ⟨_, rfl, pairwise_sortCalls hsorted, fun point => ?_, rfl, ?_⟩
      · rw [mem_sortCalls, mem_map_points, hexposed]
      · simp only [Standing.proximity?, sum_lengths hexposure, sortCalls, length_sortedBy,
          List.length_map]

/-- Of a call that is not in the graph nothing is told. A call on the surface has no points, no
coupling, and a proximity of nothing. Any other call has as its points, in ascending order, exactly
the points of the surface that it is exposed to, coupled by their number, and as its proximity the
mean length of a shortest route for each of them; or none of the three where there is no such
point. -/
theorem standing_measures (kind : SurfaceKind) (call : Call) :
    (¬ g.contains call → g.standing kind call = .error (.notANode call.display) ∧
      g.pathLengths kind call = .error (.notANode call.display)) ∧
    (g.contains call → ∃ standing lengths, g.standing kind call = .ok standing ∧
      g.pathLengths kind call = .ok lengths ∧
      (g.hasMark call kind.mark → standing.points? = none ∧ standing.proximity? = some 0 ∧
        standing.coupling? = none ∧ lengths = []) ∧
      (¬ g.hasMark call kind.mark → g.Measures kind call standing lengths)) := by
  refine ⟨fun habsent => ?_, fun hcall => ?_⟩
  · have hrequire := require_of_not_contains habsent
    exact ⟨by rw [standing, hrequire]; rfl, by rw [pathLengths, hrequire]; rfl⟩
  · obtain ⟨node, hn⟩ := h.exists_node? hcall
    have hmarked := hasMark_of_node? hn kind.mark
    by_cases hmark : g.hasMark call kind.mark
    · refine ⟨.onSurface, [], ?_, ?_, fun _ => ⟨rfl, rfl, rfl, rfl⟩, absurd hmark⟩
      · simp only [standing, require_eq_ok.2 hn, Except.map, if_pos (hmarked ▸ hmark)]
      · simp only [pathLengths, require_eq_ok.2 hn, Except.map, if_pos (hmarked ▸ hmark)]
    · obtain ⟨standing, hstanding, hmeasures⟩ := h.exists_measures hn hmark
      refine ⟨standing, _, hstanding, ?_, fun hother => absurd hother hmark, fun _ => hmeasures⟩
      simp only [pathLengths, require_eq_ok.2 hn, Except.map, if_neg (hmarked ▸ hmark)]

end WellFormed

/-- Two entry points before `sink`, one of them straight before it, and an exit point behind it. -/
def oneWayChain : CallGraph Rat :=
  ((((((empty.addEdge { name := "far" } { name := "step" }).addEdge { name := "step" }
    { name := "sink" }).addEdge { name := "near" } { name := "sink" }).addEdge { name := "sink" }
      { name := "out" }).addNode { name := "far" } { marks := { entry := true } }).addNode
        { name := "near" } { marks := { entry := true } }).addNode { name := "out" }
          { marks := { exit := true } }

theorem built_oneWayChain : Built oneWayChain :=
  (((((((Built.empty "").addEdge _ _ _).addEdge _ _ _).addEdge _ _ _).addEdge _ _ _).addNode
    _ _).addNode _ _).addNode _ _

theorem measures_of_oneWayChain : oneWayChain.WellFormed ∧
    oneWayChain.contains { name := "sink" } ∧
    ¬ oneWayChain.hasMark { name := "sink" } .entry ∧
    oneWayChain.standing .entry { name := "sink" } =
      .ok (.connected [{ name := "far" }, { name := "near" }] (3 / 2)) ∧
    IsLeast {hops | oneWayChain.Route hops { name := "far" } { name := "sink" }} 2 ∧
    ¬ oneWayChain.ExposedTo .entry { name := "sink" } { name := "out" } := by
  have h := built_oneWayChain.wellFormed
  have hcontains : oneWayChain.contains { name := "sink" } := by decide +kernel
  have hmark : ¬ oneWayChain.hasMark { name := "sink" } .entry := by decide +kernel
  have hstanding : oneWayChain.standing .entry { name := "sink" } =
      .ok (.connected [{ name := "far" }, { name := "near" }] (3 / 2)) := by decide +kernel
  have hlengths : oneWayChain.pathLengths .entry { name := "sink" } =
      .ok [({ name := "near" }, 1), ({ name := "far" }, 2)] := by decide +kernel
  obtain ⟨-, hpresent⟩ := h.standing_measures .entry { name := "sink" }
  obtain ⟨standing, lengths, hstanding', hlengths', -, hmeasures⟩ := hpresent hcontains
  rw [hstanding] at hstanding'
  rw [hlengths] at hlengths'
  cases hstanding'
  cases hlengths'
  obtain ⟨-, hmem, -, hconnected⟩ := hmeasures hmark
  have hfar := (hmem { name := "far" } 2).1 (by decide)
  refine ⟨h, hcontains, hmark, hstanding, hfar.2.2, fun hout => ?_⟩
  obtain ⟨points, hpoints, -, hexposed, -⟩ := hconnected ⟨_, hout⟩
  cases hpoints
  exact absurd ((hexposed _).2 hout) (by decide)

end AttackSurface.CallGraph
