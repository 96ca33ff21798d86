import AttackSurface.Surface
import AttackSurface.Proofs.Graph.Built
import AttackSurface.Proofs.Graph.Reach

/-! The attack surface from both ends. Searching from all points of the surface inwards finds the
nodes from which a search outwards finds a point. -/
namespace AttackSurface

theorem SurfaceKind.leads_outward (kind : SurfaceKind) {edges : List Edge} {slot next : Nat} :
    Leads edges kind.outward slot next ↔ Leads edges kind.inward next slot := by
  cases kind with
  | entry => exact leads_backward
  | exit => exact leads_backward.symm

namespace CallGraph

variable {α : Type} {g : CallGraph α} {kind : SurfaceKind} {node : Node α} {call : Call}
  {slot n : Nat}

/-- Some point of the surface exposes the slot. -/
def Exposed (g : CallGraph α) (kind : SurfaceKind) (slot : Nat) : Prop :=
  ∃ point ∈ g.nodes, point.attrs.marks.has kind.mark ∧
    Relation.ReflTransGen (Leads g.edges kind.inward) point.slot slot

theorem exposed_iff_outward : g.Exposed kind slot ↔
    ∃ point ∈ g.nodes, point.attrs.marks.has kind.mark ∧
      Relation.ReflTransGen (Leads g.edges kind.outward) slot point.slot := by
  have hswap : Leads g.edges kind.inward = Function.swap (Leads g.edges kind.outward) := by
    ext slot next
    exact kind.leads_outward.symm
  simp only [Exposed, hswap, Relation.reflTransGen_swap]

/-! ## Inwards -/

theorem any_exposedSlots :
    (g.exposedSlots kind).any (·.contains slot) ↔ g.Exposed kind slot := by
  simp only [exposedSlots, List.any_map, List.any_eq_true, List.mem_filter, Function.comp_apply,
    List.contains_iff_mem, mem_reach, Exposed, and_assoc]

theorem mem_attackSurface : call ∈ g.attackSurface ↔
    ∃ node ∈ g.nodes, (g.Exposed .entry node.slot ∨ g.Exposed .exit node.slot) ∧
      node.call = call := by
  simp only [attackSurface, mem_sortCalls, List.mem_map, List.mem_filter, List.any_append,
    Bool.or_eq_true, any_exposedSlots, and_assoc]

namespace WellFormed

variable (h : g.WellFormed)

include h

theorem pairwise_attackSurface : g.attackSurface.Pairwise (·.identity < ·.identity) := by
  apply pairwise_sortCalls
  have hidentities := h.nodup_identities
  rw [identities, calls] at hidentities
  exact hidentities.sublist ((List.filter_sublist.map _).map _)

/-! ## Outwards -/

theorem mem_connectedPoints : (call, n) ∈ g.connectedPoints kind slot ↔
    ∃ point ∈ g.nodes, point.slot ≠ slot ∧ point.attrs.marks.has kind.mark ∧ point.call = call ∧
      Shortest g.edges kind.outward slot n point.slot := by
  simp only [connectedPoints, List.mem_filterMap, Prod.exists, mem_distances,
    Option.ite_none_left_eq_some, Option.bind_eq_some_iff, h.nodeAt?_eq_some,
    Option.ite_none_right_eq_some, Option.some.injEq, Prod.mk.injEq]
  constructor
  · rintro ⟨_, _, hshortest, hother, point, ⟨hpoint, rfl⟩, hmark, hcall, rfl⟩
    exact ⟨point, hpoint, hother, hmark, hcall, hshortest⟩
  · rintro ⟨point, hpoint, hother, hmark, hcall, hshortest⟩
    exact ⟨_, _, hshortest, hother, point, ⟨hpoint, rfl⟩, hmark, hcall, rfl⟩

theorem connectedPoints_ne_nil_iff (hn : node ∈ g.nodes) (hmark : ¬ node.attrs.marks.has kind.mark) :
    g.connectedPoints kind node.slot ≠ [] ↔ g.Exposed kind node.slot := by
  rw [exposed_iff_outward]
  constructor
  · intro hsome
    obtain ⟨⟨call, n⟩, hconnected⟩ := List.exists_mem_of_ne_nil _ hsome
    obtain ⟨point, hpoint, -, hpointMark, -, hshortest⟩ := h.mem_connectedPoints.1 hconnected
    exact ⟨point, hpoint, hpointMark, exists_path_iff.1 ⟨n, hshortest.path⟩⟩
  · rintro ⟨point, hpoint, hpointMark, hpath⟩
    obtain ⟨hops, hpath⟩ := exists_path_iff.2 hpath
    obtain ⟨n, -, hshortest⟩ := hpath.exists_shortest
    have hother : point.slot ≠ node.slot := by
      intro hslot
      rw [h.eq_of_slot hpoint hn hslot] at hpointMark
      exact hmark hpointMark
    exact List.ne_nil_of_mem
      (h.mem_connectedPoints.2 ⟨point, hpoint, hother, hpointMark, rfl, hshortest⟩)

/-- A node has a proximity to one side of the surface exactly if some point there exposes it. -/
theorem exists_standing (hn : g.node? call = some node) (kind : SurfaceKind) :
    ∃ standing, g.standing kind call = .ok standing ∧
      (standing.proximity?.isSome ↔ g.Exposed kind node.slot) := by
  have hmem := (h.node?_eq_some.1 hn).1
  unfold standing
  rw [require_eq_ok.2 hn]
  refine ⟨_, rfl, ?_⟩
  dsimp only
  split
  · rename_i hmark
    exact iff_of_true rfl ⟨node, hmem, hmark, .refl⟩
  · rename_i hmark
    rw [← h.connectedPoints_ne_nil_iff hmem hmark]
    split
    · rename_i hnone
      simp [Standing.proximity?, hnone]
    · rename_i hsome
      simpa [Standing.proximity?] using hsome

/-- The attack surface has, ascending and each once, the nodes that have a proximity to entry points
or to exit points. -/
theorem attackSurface_agrees :
    (∀ call, call.identity ∈ g.identities → ∃ entry exit,
      g.standing .entry call = .ok entry ∧ g.standing .exit call = .ok exit ∧
      ((∃ other ∈ g.attackSurface, other.identity = call.identity) ↔
        entry.proximity?.isSome ∨ exit.proximity?.isSome)) ∧
    g.attackSurface ⊆ g.calls ∧
    g.attackSurface.Pairwise (·.identity < ·.identity) := by
  refine ⟨fun call hcall => ?_, fun call hcall => ?_, h.pairwise_attackSurface⟩
  · obtain ⟨node, hn⟩ : ∃ node, g.node? call = some node := by
      obtain ⟨node, hmem, hi⟩ := mem_identities.1 hcall
      exact ⟨node, h.node?_eq_some.2 ⟨hmem, hi⟩⟩
    obtain ⟨hmem, hi⟩ := h.node?_eq_some.1 hn
    obtain ⟨entry, hentry, hentryIff⟩ := h.exists_standing hn .entry
    obtain ⟨exit, hexit, hexitIff⟩ := h.exists_standing hn .exit
    refine ⟨entry, exit, hentry, hexit, ?_⟩
    rw [hentryIff, hexitIff]
    constructor
    · rintro ⟨other, hother, hsame⟩
      obtain ⟨found, hfound, hexposed, rfl⟩ := mem_attackSurface.1 hother
      rwa [h.eq_of_identity hfound hmem (hsame.trans hi.symm)] at hexposed
    · intro hexposed
      exact ⟨node.call, mem_attackSurface.2 ⟨node, hmem, hexposed, rfl⟩, hi⟩
  · obtain ⟨node, hmem, -, rfl⟩ := mem_attackSurface.1 hcall
    exact List.mem_map_of_mem hmem

end WellFormed

/-- An entry point with two functions below that call each other, and a function apart. -/
def oneWay : CallGraph Rat :=
  (((((empty.addNode { name := "main" } { marks := { entry := true } }).addEdge { name := "main" }
    { name := "f" } (.call .cflow)).addEdge { name := "f" } { name := "g" }
      (.call .cflow)).addEdge { name := "g" } { name := "f" } (.call .cflow)).addNode
        { name := "idle" })

theorem built_oneWay : Built oneWay :=
  (((((Built.empty "").addNode _ _).addEdge _ _ _).addEdge _ _ _).addEdge _ _ _).addNode _ _

theorem surface_of_oneWay : oneWay.WellFormed ∧
    (∃ other ∈ oneWay.attackSurface, other.identity = Call.identity { name := "g" }) ∧
    ¬ ∃ other ∈ oneWay.attackSurface, other.identity = Call.identity { name := "idle" } := by
  have h := built_oneWay.wellFormed
  refine ⟨h, ?_, ?_⟩
  · obtain ⟨entry, exit, hentry, -, hagree⟩ :=
      h.attackSurface_agrees.1 { name := "g" } (by decide +kernel)
    have hstanding : oneWay.standing .entry { name := "g" } =
        .ok (.connected [{ name := "main" }] 2) := by decide +kernel
    rw [hstanding] at hentry
    cases hentry
    exact hagree.2 (.inl rfl)
  · obtain ⟨entry, exit, hentry, hexit, hagree⟩ :=
      h.attackSurface_agrees.1 { name := "idle" } (by decide +kernel)
    have hstanding (kind : SurfaceKind) :
        oneWay.standing kind { name := "idle" } = .ok .unconnected := by
      cases kind <;> decide +kernel
    rw [hstanding] at hentry hexit
    cases hentry
    cases hexit
    rw [hagree]
    decide

end CallGraph

end AttackSurface
