import AttackSurface.Proofs.Graph.WellFormed

/-! Adding nodes and changing attributes. Both keep a call graph well-formed, and show only in
look-ups of the call or the slot that they name. -/
namespace AttackSurface.CallGraph

variable {α : Type} {g : CallGraph α} {call other : Call} {u v : Call} {slot source target : Nat}
  {attrs : NodeAttrs α} {combine : NodeAttrs α → NodeAttrs α → NodeAttrs α}

/-! ## New attributes in the old places -/

theorem WellFormed.withNodes (h : g.WellFormed) {nodes : List (Node α)}
    (same : nodes.map (fun node => (node.slot, node.call)) =
      g.nodes.map fun node => (node.slot, node.call)) :
    { g with nodes }.WellFormed := by
  have hslots : ({ g with nodes } : CallGraph α).slots = g.slots := by
    simpa [slots, Function.comp_def] using congrArg (List.map Prod.fst) same
  have hmem (P : Nat × Call → Prop) :
      (∃ node ∈ nodes, P (node.slot, node.call)) ↔ ∃ node ∈ g.nodes, P (node.slot, node.call) := by
    have hkeys : (∃ key ∈ nodes.map fun node => (node.slot, node.call), P key) ↔
        ∃ key ∈ g.nodes.map fun node => (node.slot, node.call), P key := by rw [same]
    simpa using hkeys
  refine ⟨?_, fun identity slot => ?_, h.ends_nodup, ?_, ?_, h.edgeSlots⟩
  · rw [hslots]
    exact h.ascending
  · exact (h.index_iff identity slot).trans
      (hmem fun key => key.2.identity = identity ∧ key.1 = slot).symm
  · rw [hslots]
    exact h.edges_live
  · rw [hslots]
    exact h.nodeSlots

theorem WellFormed.withEdges (h : g.WellFormed) {edges : List Edge}
    (same : edges.map (fun edge => (edge.slot, edge.ends)) =
      g.edges.map fun edge => (edge.slot, edge.ends)) :
    { g with edges }.WellFormed := by
  have hslots : edges.map (·.slot) = g.edges.map (·.slot) := by
    simpa [List.map_map, Function.comp_def] using congrArg (List.map Prod.fst) same
  have hends : edges.map Edge.ends = g.edges.map Edge.ends := by
    simpa [List.map_map, Function.comp_def] using congrArg (List.map Prod.snd) same
  refine ⟨h.ascending, h.index_iff, ?_, fun edge he => ?_, h.nodeSlots, ?_⟩
  · exact hends ▸ h.ends_nodup
  · obtain ⟨old, hold, hsame⟩ := List.mem_map.1 (hends ▸ List.mem_map_of_mem he)
    obtain ⟨hs, ht⟩ := Prod.mk.inj hsame
    rw [← hs, ← ht]
    exact h.edges_live old hold
  · exact hslots ▸ h.edgeSlots

theorem WellFormed.updateAt (h : g.WellFormed) (slot : Nat) (change : NodeAttrs α → NodeAttrs α) :
    (g.updateAt slot change).WellFormed := by
  refine h.withNodes ?_
  rw [List.map_map]
  refine List.map_congr_left fun node _ => ?_
  simp only [Function.comp_apply]
  split <;> rfl

theorem WellFormed.updateEdge (h : g.WellFormed) (slot : Nat) (change : EdgeAttrs → EdgeAttrs) :
    (g.updateEdge slot change).WellFormed := by
  refine h.withEdges ?_
  rw [List.map_map]
  refine List.map_congr_left fun edge _ => ?_
  simp only [Function.comp_apply]
  split <;> rfl

theorem nodeAt?_updateAt (change : NodeAttrs α → NodeAttrs α) (place : Nat) :
    (g.updateAt slot change).nodeAt? place =
      (g.nodeAt? place).map fun node =>
        if node.slot = slot then { node with attrs := change node.attrs } else node := by
  unfold nodeAt? updateAt
  rw [List.find?_map]
  congr 2
  funext node
  simp only [Function.comp_apply]
  split <;> rfl

theorem attrs?_updateAt (change : NodeAttrs α → NodeAttrs α) :
    (g.updateAt slot change).attrs? other =
      if g.slot? other = some slot then (g.attrs? other).map change else g.attrs? other := by
  have hslot : (g.updateAt slot change).slot? other = g.slot? other := rfl
  unfold attrs? node?
  rw [hslot]
  cases hs : g.slot? other with
  | none => rfl
  | some place =>
    rw [Option.bind_some, Option.bind_some, nodeAt?_updateAt]
    cases hn : g.nodeAt? place with
    | none => simp
    | some node =>
      have hplace : node.slot = place := by simpa [nodeAt?] using List.find?_some hn
      by_cases h : place = slot <;> simp [hplace, h]

theorem WellFormed.updateNode (h : g.WellFormed) (call : Call)
    (change : NodeAttrs α → NodeAttrs α) : (g.updateNode call change).WellFormed := by
  unfold CallGraph.updateNode
  split
  · exact h.updateAt _ change
  · exact h

/-! ## New nodes -/

theorem WellFormed.slot?_eq_slot? (h : g.WellFormed) (hs : g.slot? call = some slot) :
    g.slot? other = some slot ↔ other.identity = call.identity := by
  constructor
  · exact fun ho => h.identity_eq_of_slot? ho hs
  · exact fun hi => (slot?_congr hi).trans hs

theorem mem_nodes_insertNode {node : Node α} :
    node ∈ (g.insertNode call attrs).nodes ↔
      node = ⟨g.nodeSlots.next, call, attrs⟩ ∨ node ∈ g.nodes :=
  mem_insertSorted

theorem slot?_insertNode :
    (g.insertNode call attrs).slot? other =
      if other.identity = call.identity then some g.nodeSlots.next else g.slot? other :=
  SlotIndex.get?_put ..

theorem WellFormed.insertNode (h : g.WellFormed) (fresh : g.slot? call = none)
    (attrs : NodeAttrs α) : (g.insertNode call attrs).WellFormed := by
  let node : Node α := ⟨g.nodeSlots.next, call, attrs⟩
  have hnext : g.nodeSlots.next ∉ g.slots := h.nodeSlots.next_notMem
  have hslots : (g.nodeSlots.next :: g.slots).Perm (g.insertNode call attrs).slots :=
    (insertSorted_perm (fun a b : Node α => a.slot ≤ b.slot) node g.nodes).symm.map Node.slot
  have hlive {slot : Nat} (hs : slot ∈ g.slots) : slot ∈ (g.insertNode call attrs).slots :=
    hslots.mem_iff.1 (List.mem_cons_of_mem _ hs)
  refine ⟨?_, fun identity slot => ?_, h.ends_nodup, fun edge he => ?_, ?_, h.edgeSlots⟩
  · refine List.pairwise_map.2 (pairwise_insertSorted (R := fun a b : Node α => a.slot < b.slot)
      Nat.lt_trans (List.pairwise_map.1 h.ascending) (fun other ho hle => ?_) fun other _ hle => ?_)
    · -- The new slot is none of those in use, so an order by `≤` is one by `<`.
      have hne : other.slot ≠ g.nodeSlots.next := fun he => hnext (he ▸ mem_slots_of_mem ho)
      exact Nat.lt_of_le_of_ne (of_decide_eq_true hle) (Ne.symm hne)
    · simpa using hle
  · simp only [mem_nodes_insertNode, or_and_right, exists_or, exists_eq_left, ← h.index_iff]
    rw [show (g.insertNode call attrs).index.get? identity = _ from SlotIndex.get?_put ..]
    by_cases hi : identity = call.identity
    · have hnone : g.index.get? identity = none := hi ▸ fresh
      simp [hi, hi ▸ hnone]
    · simp [hi, Ne.symm hi]
  · exact (h.edges_live edge he).imp hlive hlive
  · exact h.nodeSlots.take.perm hslots

theorem WellFormed.attrs?_insertNode (h : g.WellFormed) (fresh : g.slot? call = none) :
    (g.insertNode call attrs).attrs? other =
      if other.identity = call.identity then some attrs else g.attrs? other := by
  have hnew := h.insertNode fresh attrs
  split
  · rename_i hi
    exact (attrs?_congr hi).trans (hnew.attrs?_of_mem (mem_nodes_insertNode.2 (.inl rfl)))
  · rename_i hi
    ext a
    simp only [hnew.attrs?_eq_some, h.attrs?_eq_some, mem_nodes_insertNode]
    constructor
    · rintro ⟨node, rfl | hn, hc, ha⟩
      · exact absurd hc.symm hi
      · exact ⟨node, hn, hc, ha⟩
    · rintro ⟨node, hn, hc, ha⟩
      exact ⟨node, .inr hn, hc, ha⟩

theorem WellFormed.addNodeWith (h : g.WellFormed)
    (combine : NodeAttrs α → NodeAttrs α → NodeAttrs α) (call : Call) (attrs : NodeAttrs α) :
    (g.addNodeWith combine call attrs).WellFormed := by
  unfold CallGraph.addNodeWith
  split
  · exact h.updateAt _ _
  · exact h.insertNode ‹_› attrs

@[simp] theorem edges_addNodeWith : (g.addNodeWith combine call attrs).edges = g.edges := by
  unfold addNodeWith
  split <;> rfl

theorem slot?_addNodeWith :
    (g.addNodeWith combine call attrs).slot? other =
      if other.identity = call.identity then some ((g.slot? call).getD g.nodeSlots.next)
      else g.slot? other := by
  unfold addNodeWith
  cases hs : g.slot? call with
  | none => simpa using slot?_insertNode
  | some slot =>
    show g.slot? other = _
    split
    · rename_i hi
      exact (slot?_congr hi).trans hs
    · rfl

theorem WellFormed.attrs?_addNodeWith (h : g.WellFormed) :
    (g.addNodeWith combine call attrs).attrs? other =
      if other.identity = call.identity then (g.attrs? call).merge combine (some attrs)
      else g.attrs? other := by
  unfold CallGraph.addNodeWith
  cases hs : g.slot? call with
  | none =>
    have hnone : g.attrs? call = none := by simp [attrs?, node?, hs]
    simpa [hnone] using h.attrs?_insertNode hs
  | some slot =>
    obtain ⟨node, -, -, hnode⟩ := h.node?_of_slot? hs
    have hsome : g.attrs? call = some node.attrs := by simp [attrs?, hnode]
    simp only [attrs?_updateAt, h.slot?_eq_slot? hs]
    split
    · rename_i hi
      rw [attrs?_congr hi, hsome]
      rfl
    · rfl

/-- A slot in use is that of the same calls as before. -/
theorem WellFormed.slot?_addNodeWith_eq_some (h : g.WellFormed) (live : slot ∈ g.slots) :
    (g.addNodeWith combine call attrs).slot? other = some slot ↔ g.slot? other = some slot := by
  rw [slot?_addNodeWith]
  split
  · rename_i hi
    rw [slot?_congr hi]
    cases hs : g.slot? call with
    | none =>
      have hne : g.nodeSlots.next ≠ slot := fun he => h.nodeSlots.next_notMem (he ▸ live)
      simpa using hne
    | some place => simp
  · rfl

theorem WellFormed.edgeAttrs?_addNodeWith (h : g.WellFormed) :
    (g.addNodeWith combine call attrs).edgeAttrs? u v = g.edgeAttrs? u v := by
  ext a
  rw [(h.addNodeWith combine call attrs).edgeAttrs?_eq_some, h.edgeAttrs?_eq_some,
    edges_addNodeWith]
  refine exists_congr fun edge => and_congr_right fun he => ?_
  obtain ⟨hs, ht⟩ := h.edges_live edge he
  rw [h.slot?_addNodeWith_eq_some hs, h.slot?_addNodeWith_eq_some ht]

end AttackSurface.CallGraph
