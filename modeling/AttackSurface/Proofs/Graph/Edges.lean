import AttackSurface.Proofs.Graph.Nodes

/-! Adding edges to a call graph. A new edge shows in one look-up only, that between its ends, and
its ends are nodes afterwards. -/
namespace AttackSurface

/-! ## Attributes without content -/

namespace NodeAttrs

variable {α : Type}

@[simp] theorem merge_empty (attrs : NodeAttrs α) : attrs.merge {} = attrs := by
  obtain ⟨marks, frequency, scores⟩ := attrs
  have hmarks : marks.union {} = marks := Marks.ext_has (by simp)
  simp only [merge, mergeWith, hmarks, Option.merge_none_right]
  rfl

end NodeAttrs

namespace CallGraph

variable {α : Type} {g : CallGraph α} {call other caller callee u v : Call}
  {slot source target : Nat} {attrs : EdgeAttrs}

/-! ## Between slots -/

/-- The attributes of the edge between two slots. -/
def joined? (g : CallGraph α) (source target : Nat) : Option EdgeAttrs :=
  (g.edgeBetween? source target).map (·.attrs)

theorem edgeAttrs?_eq_joined? :
    g.edgeAttrs? u v =
      (g.slot? u).bind fun source => (g.slot? v).bind fun target => g.joined? source target := by
  simp only [edgeAttrs?, joined?, Option.bind_eq_bind, Option.pure_def, Option.map_eq_bind]
  rfl

theorem edgeBetween?_updateEdge (change : EdgeAttrs → EdgeAttrs) :
    (g.updateEdge slot change).edgeBetween? source target =
      (g.edgeBetween? source target).map fun edge =>
        if edge.slot = slot then { edge with attrs := change edge.attrs } else edge := by
  unfold edgeBetween? updateEdge
  rw [List.find?_map]
  congr 2
  funext edge
  simp only [Function.comp_apply]
  split <;> rfl

theorem WellFormed.insertEdge (h : g.WellFormed) (fresh : g.edgeBetween? source target = none)
    (hs : source ∈ g.slots) (ht : target ∈ g.slots) (attrs : EdgeAttrs) :
    (g.insertEdge source target attrs).WellFormed := by
  refine ⟨h.ascending, h.index_iff, ?_, fun edge he => ?_, h.nodeSlots, h.edgeSlots.take⟩
  · refine List.nodup_cons.2 ⟨fun hmem => ?_, h.ends_nodup⟩
    obtain ⟨edge, he, hends⟩ := List.mem_map.1 hmem
    obtain ⟨rfl, rfl⟩ := Prod.mk.inj hends
    simp [h.edgeBetween?_eq_some.2 ⟨he, rfl, rfl⟩] at fresh
  · rcases List.mem_cons.1 he with rfl | he
    · exact ⟨hs, ht⟩
    · exact h.edges_live edge he

theorem WellFormed.addEdgeBetween (h : g.WellFormed) (hs : source ∈ g.slots)
    (ht : target ∈ g.slots) (attrs : EdgeAttrs) :
    (g.addEdgeBetween source target attrs).WellFormed := by
  unfold CallGraph.addEdgeBetween
  split
  · exact h.updateEdge _ _
  · exact h.insertEdge ‹_› hs ht attrs

@[simp] theorem nodes_addEdgeBetween : (g.addEdgeBetween source target attrs).nodes = g.nodes := by
  unfold addEdgeBetween
  split <;> rfl

@[simp] theorem index_addEdgeBetween : (g.addEdgeBetween source target attrs).index = g.index := by
  unfold addEdgeBetween
  split <;> rfl

@[simp] theorem slots_addEdgeBetween : (g.addEdgeBetween source target attrs).slots = g.slots := by
  simp [slots]

@[simp] theorem slot?_addEdgeBetween :
    (g.addEdgeBetween source target attrs).slot? call = g.slot? call := by
  simp [slot?]

@[simp] theorem attrs?_addEdgeBetween :
    (g.addEdgeBetween source target attrs).attrs? call = g.attrs? call := by
  unfold attrs? node? nodeAt?
  simp

theorem joined?_insertEdge (x y : Nat) :
    (g.insertEdge source target attrs).joined? x y =
      if x = source ∧ y = target then some attrs else g.joined? x y := by
  unfold joined? edgeBetween? insertEdge
  rw [List.find?_cons]
  by_cases hxy : x = source ∧ y = target
  · simp [hxy]
  · have hyx : ¬ (source = x ∧ target = y) := by
      rintro ⟨rfl, rfl⟩
      exact hxy ⟨rfl, rfl⟩
    simp [hxy, hyx]

theorem WellFormed.joined?_addEdgeBetween (h : g.WellFormed) (x y : Nat) :
    (g.addEdgeBetween source target attrs).joined? x y =
      if x = source ∧ y = target then (g.joined? source target).merge EdgeAttrs.merge (some attrs)
      else g.joined? x y := by
  unfold CallGraph.addEdgeBetween
  cases hold : g.edgeBetween? source target with
  | none =>
    have hnone : g.joined? source target = none := by simp [joined?, hold]
    rw [joined?_insertEdge, hnone, Option.merge_none_left]
  | some old =>
    obtain ⟨hmem, hs, ht⟩ := h.edgeBetween?_eq_some.1 hold
    simp only [joined?, edgeBetween?_updateEdge, hold, Option.map_some, Option.merge_some_some]
    by_cases hxy : x = source ∧ y = target
    · obtain ⟨rfl, rfl⟩ := hxy
      simp [hold]
    · rw [if_neg hxy]
      cases hedge : g.edgeBetween? x y with
      | none => rfl
      | some edge =>
        obtain ⟨he, rfl, rfl⟩ := h.edgeBetween?_eq_some.1 hedge
        -- Edges with one slot are one edge, so the update changes no other.
        have hne : edge.slot ≠ old.slot := by
          intro heq
          obtain rfl := h.eq_of_edgeSlot he hmem heq
          exact hxy ⟨hs, ht⟩
        simp [hne]

/-! ## Between calls -/

theorem WellFormed.addNode (h : g.WellFormed) (call : Call) (attrs : NodeAttrs α) :
    (g.addNode call attrs).WellFormed :=
  h.addNodeWith NodeAttrs.merge call attrs

theorem slot?_addNode_self (g : CallGraph α) (call : Call) (attrs : NodeAttrs α) :
    ∃ slot, (g.addNode call attrs).slot? call = some slot := by
  simp [addNode, slot?_addNodeWith]

theorem slot?_addNode_of_some (hs : g.slot? other = some slot) (call : Call)
    (attrs : NodeAttrs α) : (g.addNode call attrs).slot? other = some slot := by
  rw [addNode, slot?_addNodeWith]
  split
  · rename_i hi
    simp [← slot?_congr hi, hs]
  · exact hs

theorem WellFormed.attrs?_addNode_empty (h : g.WellFormed) :
    (g.addNode call).attrs? other =
      if other.identity = call.identity then some ((g.attrs? other).getD {})
      else g.attrs? other := by
  rw [CallGraph.addNode, h.attrs?_addNodeWith]
  refine ite_congr rfl (fun hi => ?_) fun _ => rfl
  rw [← attrs?_congr hi]
  cases g.attrs? other <;> simp

/-- An edge is added between the slots that its ends have once both are nodes. -/
theorem addEdge_eq (g : CallGraph α) (caller callee : Call) (attrs : EdgeAttrs) :
    ∃ source target, ((g.addNode caller).addNode callee).slot? caller = some source ∧
      ((g.addNode caller).addNode callee).slot? callee = some target ∧
      g.addEdge caller callee attrs =
        ((g.addNode caller).addNode callee).addEdgeBetween source target attrs := by
  obtain ⟨source, hs⟩ := slot?_addNode_self g caller {}
  obtain ⟨target, ht⟩ := slot?_addNode_self (g.addNode caller) callee {}
  have hs := slot?_addNode_of_some hs callee {}
  refine ⟨source, target, hs, ht, ?_⟩
  simp only [addEdge, hs, ht]

theorem WellFormed.addEdge (h : g.WellFormed) (caller callee : Call) (attrs : EdgeAttrs) :
    (g.addEdge caller callee attrs).WellFormed := by
  obtain ⟨source, target, hs, ht, heq⟩ := addEdge_eq g caller callee attrs
  have hnodes := (h.addNode caller {}).addNode callee {}
  rw [heq]
  exact hnodes.addEdgeBetween (hnodes.mem_slots_of_slot? hs) (hnodes.mem_slots_of_slot? ht) attrs

theorem WellFormed.attrs?_addEdge (h : g.WellFormed) :
    (g.addEdge caller callee attrs).attrs? other =
      if other.identity = caller.identity ∨ other.identity = callee.identity then
        some ((g.attrs? other).getD {})
      else g.attrs? other := by
  obtain ⟨source, target, -, -, heq⟩ := addEdge_eq g caller callee attrs
  rw [heq, attrs?_addEdgeBetween, (h.addNode caller {}).attrs?_addNode_empty,
    h.attrs?_addNode_empty]
  by_cases hcallee : other.identity = callee.identity
  · rw [if_pos hcallee, if_pos (Or.inr hcallee)]
    split <;> simp
  · simp [hcallee]

theorem WellFormed.edgeAttrs?_addEdge (h : g.WellFormed) :
    (g.addEdge caller callee attrs).edgeAttrs? u v =
      if u.identity = caller.identity ∧ v.identity = callee.identity then
        (g.edgeAttrs? u v).merge EdgeAttrs.merge (some attrs)
      else g.edgeAttrs? u v := by
  obtain ⟨source, target, hs, ht, heq⟩ := addEdge_eq g caller callee attrs
  have hnodes := (h.addNode caller {}).addNode callee {}
  have hsame : ((g.addNode caller).addNode callee).edgeAttrs? u v = g.edgeAttrs? u v :=
    (h.addNode caller {}).edgeAttrs?_addNodeWith.trans h.edgeAttrs?_addNodeWith
  rw [heq, ← hsame, edgeAttrs?_eq_joined?, edgeAttrs?_eq_joined?]
  simp only [slot?_addEdgeBetween, hnodes.joined?_addEdgeBetween]
  split
  · rename_i hends
    simp [slot?_congr hends.1, slot?_congr hends.2, hs, ht]
  · rename_i hends
    cases hu : ((g.addNode caller).addNode callee).slot? u with
    | none => rfl
    | some x =>
      cases hv : ((g.addNode caller).addNode callee).slot? v with
      | none => rfl
      | some y =>
        have hne : ¬ (x = source ∧ y = target) := by
          rintro ⟨rfl, rfl⟩
          exact hends ⟨hnodes.identity_eq_of_slot? hu hs, hnodes.identity_eq_of_slot? hv ht⟩
        simp [hne]

end CallGraph

end AttackSurface
