import AttackSurface.Gprof.Aggregate
import AttackSurface.Proofs.Graph.Reconcile
import AttackSurface.Rank
import AttackSurface.Weights

/-! Graphs built by the operations. Every operation preserves what makes a call graph well-formed,
so every graph built by them is, in whatever order they come. -/
namespace AttackSurface.CallGraph

variable {α : Type}

/-- The graphs that the operations make of empty ones. -/
inductive Built [Scalar α] : CallGraph α → Prop
  | empty (source : String) : Built (empty source)
  | withOrigin {g} (h : Built g) (source : String) (errors : List LineError) :
    Built { g with source, errors }
  | addNode {g} (h : Built g) (call : Call) (attrs : NodeAttrs α) : Built (g.addNode call attrs)
  | updateNode {g} (h : Built g) (call : Call) (change : NodeAttrs α → NodeAttrs α) :
    Built (g.updateNode call change)
  | addEdge {g} (h : Built g) (caller callee : Call) (attrs : EdgeAttrs) :
    Built (g.addEdge caller callee attrs)
  | removeNode {g} (h : Built g) (call : Call) : Built (g.removeNode call)
  | union {g other} (h : Built g) (ho : Built other) : Built (g.union other)
  | rename {g} (h : Built g) (call renamed : Call) : Built (g.rename call renamed)
  | reconcile {g reference} (h : Built g) (hr : Built reference) : Built (g.reconcile reference)
  | merge {g other} (h : Built g) (ho : Built other) : Built (g.merge other)
  | fragmentize {g} (h : Built g) : Built g.fragmentize
  | assignWeights {g} (h : Built g) (weights : Weights) : Built (g.assignWeights weights)
  | assignRanks {g} (h : Built g) (params : RankParams α) (name : String) :
    Built (g.assignRanks params name)
  | addProfile {g other} (h : Built g) (ho : Built other) : Built (Gprof.addProfile g other)

variable {g reference : CallGraph α}

/-! ## Operations on whole graphs -/

/-- What every renaming keeps is kept by a reconciliation. -/
theorem reconcile_induction {P : CallGraph α → Prop}
    (rename : ∀ g call renamed, P g → P (g.rename call renamed)) (h : P g) :
    P (g.reconcile reference) := by
  unfold reconcile reconcileCounted
  exact List.foldlRecOn _ _ (motive := fun counted : CallGraph α × Nat => P counted.1) h
    fun counted hg relocation _ => rename counted.1 relocation.1 relocation.2 hg

namespace WellFormed

theorem reconcile (h : g.WellFormed) (reference : CallGraph α) :
    (g.reconcile reference).WellFormed :=
  reconcile_induction (fun _ call renamed hg => hg.rename call renamed) h

theorem union (h : g.WellFormed) (other : CallGraph α) : (g.union other).WellFormed :=
  h.unionWith NodeAttrs.merge other

theorem merge (static profile : CallGraph α) : (static.merge profile).WellFormed :=
  (((wellFormed_empty _).union _).union _).withOrigin ..

theorem assignWeights (h : g.WellFormed) (weights : Weights) :
    (g.assignWeights weights).WellFormed := by
  refine h.withEdges ?_
  rw [List.map_map]
  rfl

theorem assignRanks [Scalar α] (h : g.WellFormed) (params : RankParams α) (name : String) :
    (g.assignRanks params name).WellFormed := by
  refine h.withNodes ?_
  have hlength : g.nodes.length ≤ (g.rankRun params).rank.toList.length := by simp
  conv_rhs => rw [← List.map_fst_zip hlength]
  rw [List.map_map, List.map_map]
  rfl

theorem addProfile (h : g.WellFormed) (profile : CallGraph α) :
    (Gprof.addProfile g profile).WellFormed :=
  (h.unionWith NodeAttrs.accumulate profile).withOrigin ..

end WellFormed

/-! ## Whole runs -/

theorem Built.wellFormed [Scalar α] (h : Built g) : g.WellFormed := by
  induction h with
  | empty source => exact wellFormed_empty source
  | withOrigin _ source errors ih => exact ih.withOrigin source errors _
  | addNode _ call attrs ih => exact ih.addNode call attrs
  | updateNode _ call change ih => exact ih.updateNode call change
  | addEdge _ caller callee attrs ih => exact ih.addEdge caller callee attrs
  | removeNode _ call ih => exact ih.removeNode call
  | union _ _ ih _ => exact ih.union _
  | rename _ call renamed ih => exact ih.rename call renamed
  | reconcile _ _ ih _ => exact ih.reconcile _
  | merge => exact WellFormed.merge _ _
  | fragmentize _ ih => exact ih.fragmentize
  | assignWeights _ weights ih => exact ih.assignWeights weights
  | assignRanks _ params name ih => exact ih.assignRanks params name
  | addProfile _ _ ih _ => exact ih.addProfile _

/-- After any operations the index has exactly the identities of the nodes and leads to the slots
that hold them, no two nodes share an identity or a slot, at most one edge leads from one slot to
another, and there is a node at both of its ends. -/
theorem Built.index_and_edges_agree [Scalar α] (h : Built g) :
    (∀ identity slot, g.index.get? identity = some slot ↔
      ∃ node, g.nodeAt? slot = some node ∧ node.call.identity = identity) ∧
    (∀ identity, (g.index.get? identity).isSome ↔ identity ∈ g.identities) ∧
    g.identities.Nodup ∧ g.slots.Nodup ∧ (g.edges.map Edge.ends).Nodup ∧
    ∀ edge ∈ g.edges, (g.nodeAt? edge.source).isSome ∧ (g.nodeAt? edge.target).isSome := by
  have hwf := h.wellFormed
  have hheld {slot : Nat} (hs : slot ∈ g.slots) : (g.nodeAt? slot).isSome := by
    obtain ⟨node, hn, rfl⟩ := mem_slots.1 hs
    rw [hwf.nodeAt?_eq_some.2 ⟨hn, rfl⟩]
    rfl
  refine ⟨fun identity slot => ?_, fun identity => ?_, hwf.nodup_identities, hwf.nodeSlots.nodup,
    hwf.ends_nodup, fun edge he => (hwf.edges_live edge he).imp hheld hheld⟩
  · rw [hwf.index_iff]
    refine exists_congr fun node => ?_
    rw [hwf.nodeAt?_eq_some, and_assoc, and_comm (a := node.slot = slot)]
  · rw [Option.isSome_iff_exists, mem_identities]
    simp only [hwf.index_iff]
    constructor
    · rintro ⟨slot, node, hn, hi, -⟩
      exact ⟨node, hn, hi⟩
    · rintro ⟨node, hn, hi⟩
      exact ⟨node.slot, node, hn, hi, rfl⟩

/-- A function that calls itself is located once its caller is gone. -/
def locatedLoop : CallGraph Rat :=
  (((empty.addEdge { name := "main" } { name := "f" }).removeNode { name := "main" }).addEdge
    { name := "f" } { name := "f" }).rename { name := "f" } { name := "f", signature := "f.c" }

theorem built_locatedLoop : Built locatedLoop :=
  ((((Built.empty "").addEdge _ _ _).removeNode _).addEdge _ _ _).rename _ _

theorem index_of_locatedLoop : Built locatedLoop ∧ locatedLoop.index.get? "f f.c" = some 1 ∧
    ¬ (locatedLoop.index.get? "f").isSome ∧
      ∀ edge ∈ locatedLoop.edges, (locatedLoop.nodeAt? edge.source).isSome := by
  obtain ⟨hindex, hidentities, -, -, -, hends⟩ := built_locatedLoop.index_and_edges_agree
  refine ⟨built_locatedLoop, (hindex "f f.c" 1).2 ?_, ?_, fun edge he => (hends edge he).1⟩
  · exact ⟨⟨1, { name := "f", signature := "f.c" }, {}⟩, by rfl, by decide⟩
  · rw [hidentities]
    decide

end AttackSurface.CallGraph
