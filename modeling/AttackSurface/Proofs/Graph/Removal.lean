import AttackSurface.Graph.Fragments
import AttackSurface.Proofs.Graph.Nodes

/-! Removing nodes from a call graph. A node takes its edges along, its slots come back, and all
other nodes and edges stay where they are. -/
namespace AttackSurface.CallGraph

variable {α : Type} {g : CallGraph α} {call other u v : Call} {slot : Nat}

theorem edgesAt_append_perm (g : CallGraph α) (slot : Nat) :
    (g.edgesAt slot ++ g.edges.filter fun edge => edge.source ≠ slot ∧ edge.target ≠ slot).Perm
      g.edges := by
  let elsewhere := g.edges.filter fun edge => !decide (edge.source = slot)
  have hto : (g.edgesTo slot).filter (·.source ≠ slot) =
      elsewhere.filter fun edge => decide (edge.target = slot) := by
    simp [edgesTo, elsewhere, List.filter_filter, Bool.and_comm]
  have hkept : (g.edges.filter fun edge => edge.source ≠ slot ∧ edge.target ≠ slot) =
      elsewhere.filter fun edge => !decide (edge.target = slot) := by
    simp [elsewhere, List.filter_filter, Bool.and_comm]
  rw [edgesAt, hto, hkept, List.append_assoc]
  exact ((List.filter_append_perm _ elsewhere).append_left _).trans
    (List.filter_append_perm (fun edge : Edge => decide (edge.source = slot)) g.edges)

theorem slots_removeNode (hs : g.slot? call = some slot) :
    (g.removeNode call).slots = g.slots.filter (· ≠ slot) := by
  simp [removeNode, hs, removeAt, slots, List.filter_map, Function.comp_def]

theorem get?_removeNode (identity : String) :
    (g.removeNode call).index.get? identity =
      if identity = call.identity then none else g.index.get? identity := by
  unfold removeNode
  cases hs : g.slot? call with
  | none =>
    simp only [right_eq_ite_iff]
    rintro rfl
    exact hs
  | some slot => exact SlotIndex.get?_erase ..

theorem slot?_removeNode :
    (g.removeNode call).slot? other =
      if other.identity = call.identity then none else g.slot? other :=
  get?_removeNode other.identity

theorem removeNode_of_none (hs : g.slot? call = none) : g.removeNode call = g := by
  simp [removeNode, hs]

theorem mem_edges_removeNode {edge : Edge} (hs : g.slot? call = some slot) :
    edge ∈ (g.removeNode call).edges ↔
      edge ∈ g.edges ∧ edge.source ≠ slot ∧ edge.target ≠ slot := by
  simp [removeNode, hs, removeAt]

namespace WellFormed

variable (h : g.WellFormed)

include h

/-- The nodes that stay are those of other identities. -/
theorem mem_nodes_removeNode {node : Node α} :
    node ∈ (g.removeNode call).nodes ↔ node ∈ g.nodes ∧ node.call.identity ≠ call.identity := by
  cases hs : g.slot? call with
  | none =>
    rw [removeNode_of_none hs]
    refine (and_iff_left_of_imp fun hn hi => ?_).symm
    rw [← slot?_congr hi, h.slot?_of_mem hn] at hs
    cases hs
  | some slot =>
    have hnodes : node ∈ (g.removeNode call).nodes ↔ node ∈ g.nodes ∧ node.slot ≠ slot := by
      simp [CallGraph.removeNode, hs, removeAt]
    refine hnodes.trans (and_congr_right fun hn => not_congr ?_)
    rw [← h.slot?_eq_slot? hs, h.slot?_of_mem hn, Option.some.injEq]

theorem index_iff_removeNode (identity : String) (place : Nat) :
    (g.removeNode call).index.get? identity = some place ↔
      ∃ node ∈ (g.removeNode call).nodes, node.call.identity = identity ∧ node.slot = place := by
  rw [get?_removeNode]
  split
  · rename_i hi
    simp only [reduceCtorEq, h.mem_nodes_removeNode, false_iff, not_exists, not_and]
    rintro node ⟨-, hne⟩ hnode
    exact absurd (hnode.trans hi) hne
  · rename_i hi
    rw [h.index_iff]
    refine exists_congr fun node => ?_
    rw [h.mem_nodes_removeNode]
    constructor
    · rintro ⟨hn, hnode, hplace⟩
      exact ⟨⟨hn, hnode ▸ hi⟩, hnode, hplace⟩
    · rintro ⟨hn, hnode⟩
      exact ⟨hn.1, hnode⟩

theorem removeNode (call : Call) : (g.removeNode call).WellFormed := by
  cases hs : g.slot? call with
  | none => exact (removeNode_of_none hs).symm ▸ h
  | some slot =>
    have hslots := slots_removeNode hs
    have hmem : slot ∈ g.slots := h.mem_slots_of_slot? hs
    refine ⟨?_, h.index_iff_removeNode, ?_, fun edge he => ?_, ?_, ?_⟩
    · exact hslots ▸ h.ascending.filter _
    · have hsub : ((g.removeNode call).edges.map Edge.ends).Sublist (g.edges.map Edge.ends) := by
        simpa [CallGraph.removeNode, hs, removeAt] using List.filter_sublist.map Edge.ends
      exact h.ends_nodup.sublist hsub
    · rw [mem_edges_removeNode hs] at he
      obtain ⟨hsource, htarget⟩ := h.edges_live edge he.1
      simp [hslots, hsource, htarget, he.2]
    · have hperm : g.slots.Perm (slot :: (g.removeNode call).slots) := by
        have herase := List.perm_cons_erase hmem
        rw [h.nodeSlots.nodup.erase_eq_filter] at herase
        simpa [hslots, bne, beq_eq_decide] using herase
      have hback := (h.nodeSlots.perm hperm).giveBack
      rwa [show (g.removeNode call).nodeSlots = g.nodeSlots.giveBack slot by
        simp [CallGraph.removeNode, hs, removeAt]]
    · -- The edges at the slot and those elsewhere are all the edges, so their slots can come back.
      have hperm := ((edgesAt_append_perm g slot).map (·.slot)).symm
      rw [List.map_append] at hperm
      have hback := (h.edgeSlots.perm hperm).giveBackAll
      rw [List.foldl_map] at hback
      simpa [CallGraph.removeNode, hs, removeAt] using hback

theorem attrs?_removeNode :
    (g.removeNode call).attrs? other =
      if other.identity = call.identity then none else g.attrs? other := by
  ext attrs
  rw [(h.removeNode call).attrs?_eq_some]
  simp only [h.mem_nodes_removeNode]
  split
  · rename_i hi
    simp only [reduceCtorEq, iff_false, not_exists, not_and]
    rintro node ⟨-, hne⟩ hnode
    exact absurd (hnode.trans hi) hne
  · rename_i hi
    rw [h.attrs?_eq_some]
    refine exists_congr fun node => ?_
    constructor
    · rintro ⟨hn, hnode⟩
      exact ⟨hn.1, hnode⟩
    · rintro ⟨hn, hnode⟩
      exact ⟨⟨hn, hnode.1 ▸ hi⟩, hnode⟩

theorem edgeAttrs?_removeNode :
    (g.removeNode call).edgeAttrs? u v =
      if u.identity = call.identity ∨ v.identity = call.identity then none
      else g.edgeAttrs? u v := by
  cases hs : g.slot? call with
  | none =>
    rw [removeNode_of_none hs]
    split
    · rename_i hends
      rcases hends with hi | hi
      · simp [edgeAttrs?, slot?_congr hi, hs]
      · simp [edgeAttrs?, slot?_congr hi, hs]
    · rfl
  | some slot =>
    ext attrs
    rw [(h.removeNode call).edgeAttrs?_eq_some]
    simp only [mem_edges_removeNode hs, slot?_removeNode]
    by_cases hu : u.identity = call.identity
    · simp [hu]
    by_cases hv : v.identity = call.identity
    · simp [hv]
    rw [if_neg (not_or.2 ⟨hu, hv⟩), if_neg hu, if_neg hv, h.edgeAttrs?_eq_some]
    refine exists_congr fun edge => ?_
    constructor
    · rintro ⟨he, hends⟩
      exact ⟨he.1, hends⟩
    · rintro ⟨he, hsource, htarget, hattrs⟩
      have hne {w : Call} {place : Nat} (hw : w.identity ≠ call.identity)
          (hplace : g.slot? w = some place) : place ≠ slot := by
        rintro rfl
        exact hw ((h.slot?_eq_slot? hs).1 hplace)
      exact ⟨⟨he, hne hu hsource, hne hv htarget⟩, hsource, htarget, hattrs⟩

theorem mem_nodes_removeNodes {node : Node α} (calls : List Call) :
    node ∈ (calls.foldl CallGraph.removeNode g).nodes ↔
      node ∈ g.nodes ∧ ∀ call ∈ calls, node.call.identity ≠ call.identity := by
  induction calls generalizing g with
  | nil => simp
  | cons call rest ih =>
    rw [List.foldl_cons, ih (h.removeNode call), h.mem_nodes_removeNode, List.forall_mem_cons,
      and_assoc]

end WellFormed

/-- What every removal keeps is kept when a graph is cut down to a fragment. -/
theorem fragmentize_induction {P : CallGraph α → Prop}
    (remove : ∀ g call, P g → P (g.removeNode call))
    (cut : ∀ g fragmentation, P g → P { g with fragmentation }) (h : P g) : P g.fragmentize := by
  unfold fragmentize
  split
  · exact h
  · exact cut _ _ (List.foldlRecOn _ _ h fun g hg call _ => remove g call hg)

theorem WellFormed.fragmentize (h : g.WellFormed) : g.fragmentize.WellFormed :=
  fragmentize_induction (fun _ call hg => hg.removeNode call)
    (fun _ _ hg => hg.withOrigin ..) h

/-- Every node and edge of `part` is one of `g`, with the same attributes. -/
structure IsPart (part g : CallGraph α) : Prop where
  attrs : ∀ {u attrs}, part.attrs? u = some attrs → g.attrs? u = some attrs
  edgeAttrs : ∀ {u v attrs}, part.edgeAttrs? u v = some attrs → g.edgeAttrs? u v = some attrs

theorem IsPart.refl (g : CallGraph α) : IsPart g g := ⟨id, id⟩

theorem IsPart.removeNode {part : CallGraph α} (hpart : IsPart part g) (h : part.WellFormed)
    (call : Call) : IsPart (part.removeNode call) g where
  attrs hattrs := by
    rw [h.attrs?_removeNode, Option.ite_none_left_eq_some] at hattrs
    exact hpart.attrs hattrs.2
  edgeAttrs hattrs := by
    rw [h.edgeAttrs?_removeNode, Option.ite_none_left_eq_some] at hattrs
    exact hpart.edgeAttrs hattrs.2

theorem WellFormed.isPart_fragmentize (h : g.WellFormed) : IsPart g.fragmentize g := by
  have hpart : g.fragmentize.WellFormed ∧ IsPart g.fragmentize g := by
    refine fragmentize_induction (P := fun part => part.WellFormed ∧ IsPart part g) ?_ ?_
      ⟨h, .refl g⟩
    · intro part call hpart
      exact ⟨hpart.1.removeNode call, hpart.2.removeNode hpart.1 call⟩
    · intro part fragmentation hpart
      exact ⟨hpart.1.withOrigin .., hpart.2.attrs, hpart.2.edgeAttrs⟩
  exact hpart.2

end AttackSurface.CallGraph
