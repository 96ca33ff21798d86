import AttackSurface.Proofs.Graph.Listing
import Mathlib.Data.List.Induction

/-! Graphs from which nothing was ever removed. Their slots are in the order in which the nodes, and
the edges, were added, so that adding these one after the other to the empty graph gives the same
graph again. -/
namespace AttackSurface

theorem insertSorted_eq_append {β : Type} {le : β → β → Bool} {x : β} {xs : List β}
    (after : ∀ y ∈ xs, le x y = false) : insertSorted le x xs = xs ++ [x] := by
  induction xs with
  | nil => rfl
  | cons y rest ih =>
    obtain ⟨hy, hrest⟩ := List.forall_mem_cons.1 after
    simp [insertSorted, hy, ih hrest]

theorem sortedBy_eq_reverse {β : Type} {le : β → β → Bool} {xs : List β}
    (descending : xs.Pairwise fun x y => le x y = false) : sortedBy le xs = xs.reverse := by
  induction xs with
  | nil => rfl
  | cons x rest ih =>
    obtain ⟨hx, hrest⟩ := List.pairwise_cons.1 descending
    have hsorted : sortedBy le (x :: rest) = insertSorted le x (sortedBy le rest) := rfl
    rw [hsorted, ih hrest, insertSorted_eq_append (fun y hy => hx y (List.mem_reverse.1 hy)),
      List.reverse_cons]

namespace CallGraph

variable {α : Type} {g : CallGraph α} {nodes : List (Node α)} {edges : List Edge} {source : String}
  {call : Call} {attrs : NodeAttrs α} {combine : NodeAttrs α → NodeAttrs α → NodeAttrs α}

/-- The graph of nodes and edges that took their slots one after the other. -/
def grown (source : String) (nodes : List (Node α)) (edges : List Edge) : CallGraph α where
  source := source
  nodes := nodes
  edges := edges
  index := ⟨(nodes.map fun node => (node.call.identity, node.slot)).reverse⟩
  nodeSlots := ⟨nodes.length, []⟩
  edgeSlots := ⟨edges.length, []⟩

/-- Nothing was removed from the graph, and it was not cut down to a fragment. -/
structure Grown (g : CallGraph α) : Prop where
  wellFormed : g.WellFormed
  slots : g.slots = List.range g.nodes.length
  index : g.index = ⟨(g.nodes.map fun node => (node.call.identity, node.slot)).reverse⟩
  nodeSlots : g.nodeSlots = ⟨g.nodes.length, []⟩
  /-- The edges are listed newest first. -/
  edgeOrder : (g.edges.map (·.slot)).reverse = List.range g.edges.length
  edgeSlots : g.edgeSlots = ⟨g.edges.length, []⟩
  whole : g.fragmentation = none

theorem Grown.eq_grown (h : g.Grown) :
    g = { grown g.source g.nodes g.edges with errors := g.errors } := by
  obtain ⟨-, -, hindex, hnodes, -, hedges, hwhole⟩ := h
  cases g
  simp_all [grown]

/-! ## What is added takes the next slot -/

theorem Grown.empty (source : String) : (empty source : CallGraph α).Grown :=
  ⟨wellFormed_empty source, rfl, rfl, rfl, rfl, rfl, rfl⟩

/-- New attributes leave what is read off slots and calls. -/
theorem map_nodes_updateAt {β : Type} (key : Nat → Call → β) (slot : Nat)
    (change : NodeAttrs α → NodeAttrs α) :
    ((g.updateAt slot change).nodes.map fun node => key node.slot node.call) =
      g.nodes.map fun node => key node.slot node.call := by
  simp only [CallGraph.updateAt, List.map_map]
  refine List.map_congr_left fun node _ => ?_
  simp only [Function.comp_apply]
  split <;> rfl

theorem Grown.updateAt (h : g.Grown) (slot : Nat) (change : NodeAttrs α → NodeAttrs α) :
    (g.updateAt slot change).Grown where
  wellFormed := h.wellFormed.updateAt slot change
  slots := by
    have hslots : (g.updateAt slot change).slots = g.slots :=
      map_nodes_updateAt (fun slot _ => slot) slot change
    rw [hslots, h.slots]
    simp [CallGraph.updateAt]
  index := by
    have hindex : (g.updateAt slot change).index = g.index := rfl
    rw [hindex, h.index, map_nodes_updateAt fun slot call => (call.identity, slot)]
  nodeSlots := by
    have hpool : (g.updateAt slot change).nodeSlots = g.nodeSlots := rfl
    rw [hpool, h.nodeSlots]
    simp [CallGraph.updateAt]
  edgeOrder := h.edgeOrder
  edgeSlots := h.edgeSlots
  whole := h.whole

theorem Grown.nodes_insertNode (h : g.Grown) :
    (g.insertNode call attrs).nodes = g.nodes ++ [⟨g.nodes.length, call, attrs⟩] := by
  have hnext : g.nodeSlots.next = g.nodes.length := by
    rw [h.nodeSlots]
    rfl
  simp only [CallGraph.insertNode, hnext]
  refine insertSorted_eq_append fun node hnode => ?_
  have hslot : node.slot ∈ List.range g.nodes.length := h.slots ▸ mem_slots_of_mem hnode
  simpa using hslot

theorem Grown.insertNode (h : g.Grown) (fresh : g.slot? call = none) :
    (g.insertNode call attrs).Grown where
  wellFormed := h.wellFormed.insertNode fresh attrs
  slots := by
    have hslots := h.slots
    rw [CallGraph.slots] at hslots ⊢
    simp [h.nodes_insertNode, hslots, List.range_succ]
  index := by
    rw [h.nodes_insertNode]
    simp [CallGraph.insertNode, SlotIndex.put, h.index, h.nodeSlots, SlotPool.next]
  nodeSlots := by
    rw [h.nodes_insertNode]
    simp [CallGraph.insertNode, h.nodeSlots, SlotPool.take]
  edgeOrder := h.edgeOrder
  edgeSlots := h.edgeSlots
  whole := h.whole

theorem Grown.addNodeWith (h : g.Grown) (combine : NodeAttrs α → NodeAttrs α → NodeAttrs α)
    (call : Call) (attrs : NodeAttrs α) : (g.addNodeWith combine call attrs).Grown := by
  unfold CallGraph.addNodeWith
  split
  · exact h.updateAt _ _
  · exact h.insertNode ‹_›

theorem Grown.addEdgeBetween (h : g.Grown) {source target : Nat} (hs : source ∈ g.slots)
    (ht : target ∈ g.slots) (attrs : EdgeAttrs) :
    (g.addEdgeBetween source target attrs).Grown := by
  have hwf := h.wellFormed.addEdgeBetween hs ht attrs
  unfold CallGraph.addEdgeBetween at hwf ⊢
  split at hwf
  · rename_i edge _
    refine ⟨hwf, h.slots, h.index, h.nodeSlots, ?_, ?_, h.whole⟩
    · have hslots : (g.updateEdge edge.slot fun old => old.merge attrs).edges.map (·.slot) =
          g.edges.map (·.slot) := by
        simp only [CallGraph.updateEdge, List.map_map]
        refine List.map_congr_left fun other _ => ?_
        simp only [Function.comp_apply]
        split <;> rfl
      rw [hslots, h.edgeOrder]
      simp [CallGraph.updateEdge]
    · simp [CallGraph.updateEdge, h.edgeSlots]
  · refine ⟨hwf, h.slots, h.index, h.nodeSlots, ?_, ?_, h.whole⟩
    · simp [CallGraph.insertEdge, SlotPool.next, h.edgeSlots, h.edgeOrder, List.range_succ]
    · simp [CallGraph.insertEdge, SlotPool.take, h.edgeSlots]

theorem Grown.addEdge (h : g.Grown) (caller callee : Call) (attrs : EdgeAttrs) :
    (g.addEdge caller callee attrs).Grown := by
  obtain ⟨source, target, hs, ht, heq⟩ := addEdge_eq g caller callee attrs
  have hnodes := (h.addNodeWith NodeAttrs.merge caller {}).addNodeWith NodeAttrs.merge callee {}
  rw [heq]
  exact hnodes.addEdgeBetween (hnodes.wellFormed.mem_slots_of_slot? hs)
    (hnodes.wellFormed.mem_slots_of_slot? ht) attrs

theorem grown_ofEvents {producer : Producer} {options : Options} {events : List Event} :
    (ofEvents source producer options events : CallGraph α).Grown := by
  apply ofEvents_induction (.empty source)
  intro g event _ hg
  apply record_induction hg
  · intro g call attrs hg
    exact hg.addNodeWith NodeAttrs.merge call attrs
  · intro g caller callee hg
    exact (hg.addEdge _ _ _).addEdge _ _ _

theorem grown_ofTrace {producer : Producer} {options : Options} {trace : Trace} :
    (ofTrace source producer options trace : CallGraph α).Grown := by
  have h : (ofEvents source producer options trace.events : CallGraph α).Grown := grown_ofEvents
  exact ⟨h.wellFormed.withOrigin _ _ _, h.slots, h.index, h.nodeSlots, h.edgeOrder, h.edgeSlots,
    h.whole⟩

/-! ## The origin stays -/

theorem source_addNodeWith : (g.addNodeWith combine call attrs).source = g.source := by
  unfold CallGraph.addNodeWith
  split <;> rfl

theorem source_addEdge (g : CallGraph α) (caller callee : Call) (attrs : EdgeAttrs) :
    (g.addEdge caller callee attrs).source = g.source := by
  obtain ⟨source, target, -, -, heq⟩ := addEdge_eq g caller callee attrs
  have hnodes : ((g.addNode caller).addNode callee).source = g.source :=
    source_addNodeWith.trans source_addNodeWith
  rw [heq, ← hnodes]
  unfold CallGraph.addEdgeBetween
  split <;> rfl

theorem source_record {producer : Producer} {options : Options} (event : Event) :
    (g.record producer options event).source = g.source := by
  apply record_induction (P := fun after => after.source = g.source) rfl
  · intro after call attrs hafter
    exact source_addNodeWith.trans hafter
  · intro after caller callee hafter
    exact (source_addEdge ..).trans ((source_addEdge ..).trans hafter)

theorem source_ofEvents {producer : Producer} {options : Options} {events : List Event} :
    (ofEvents source producer options events : CallGraph α).source = source :=
  ofEvents_induction (P := fun g => g.source = source) rfl
    fun _ event _ hg => (source_record event).trans hg

/-! ## Adding everything again -/

theorem slot?_grown_eq_none (fresh : ∀ node ∈ nodes, node.call.identity ≠ call.identity) :
    (grown source nodes edges).slot? call = none := by
  simp only [slot?, grown, SlotIndex.get?, List.lookup_eq_none_iff, List.mem_reverse, List.mem_map]
  rintro entry ⟨node, hnode, rfl⟩
  simpa using Ne.symm (fresh node hnode)

/-- Nodes in the order of their slots take these slots again. -/
theorem addNodes_empty (order : nodes.map (·.slot) = List.range nodes.length)
    (distinct : nodes.Pairwise fun a b => a.call.identity ≠ b.call.identity) :
    (CallGraph.empty source).addNodes combine nodes = grown source nodes [] := by
  induction nodes using List.reverseRecOn with
  | nil => rfl
  | append_singleton rest node ih =>
    rw [List.map_append, List.length_append, List.length_singleton, List.range_succ] at order
    obtain ⟨hrest, hlast⟩ := List.append_inj' order rfl
    obtain ⟨hdistinct, -, hfresh⟩ := List.pairwise_append.1 distinct
    have hslot : node.slot = rest.length := List.singleton_inj.1 hlast
    have hnew : (grown source rest []).slot? node.call = none :=
      slot?_grown_eq_none fun other hother => hfresh other hother node (List.mem_singleton_self _)
    have hplace : (⟨rest.length, node.call, node.attrs⟩ : Node α) = node := by rw [← hslot]
    have hafter : ∀ other ∈ rest, decide (node.slot ≤ other.slot) = false := by
      intro other hother
      have hmem : other.slot ∈ List.range rest.length := hrest ▸ List.mem_map_of_mem hother
      simpa [hslot] using hmem
    have hstep : (CallGraph.empty source).addNodes combine (rest ++ [node]) =
        ((CallGraph.empty source).addNodes combine rest).addNodeWith combine node.call
          node.attrs := by
      rw [addNodes, List.foldl_append]
      rfl
    rw [hstep, ih hrest hdistinct, CallGraph.addNodeWith, hnew]
    simp only [CallGraph.insertNode, grown, SlotPool.next, SlotPool.take, SlotIndex.put,
      List.headD_nil]
    rw [hplace, insertSorted_eq_append hafter]
    simp [hslot]

/-- An edge of the graph as the calls at its ends and its attributes. -/
def linkOf (g : CallGraph α) (edge : Edge) : Option (Call × Call × EdgeAttrs) := do
  let source ← g.callAt? edge.source
  let target ← g.callAt? edge.target
  return (source, target, edge.attrs)

theorem Grown.links_eq (h : g.Grown) : g.links = g.edges.reverse.filterMap g.linkOf := by
  have hsorted : sortedBy (fun a b : Edge => a.slot ≤ b.slot) g.edges = g.edges.reverse := by
    apply sortedBy_eq_reverse
    have hascending : (g.edges.map (·.slot)).reverse.Pairwise (· < ·) :=
      h.edgeOrder ▸ List.pairwise_lt_range
    rw [List.pairwise_reverse, List.pairwise_map] at hascending
    refine hascending.imp fun hlt => ?_
    simpa using hlt
  rw [links, hsorted]
  rfl

theorem addNode_of_slot? {slot : Nat} (hs : g.slot? call = some slot) : g.addNode call = g := by
  have hnodes : (g.nodes.map fun node =>
      if node.slot = slot then { node with attrs := node.attrs.merge {} } else node) = g.nodes := by
    simp
  simp only [CallGraph.addNode, CallGraph.addNodeWith, hs, CallGraph.updateAt, hnodes]

/-- The ends of a link are nodes already, so that it adds no more than its edge. -/
theorem addEdge_grown (h : g.Grown) {edge : Edge} {link : Call × Call × EdgeAttrs}
    (hlink : g.linkOf edge = some link) (hslot : edge.slot = edges.length)
    (fresh : ∀ other ∈ edges, other.ends ≠ edge.ends) :
    (grown source g.nodes edges).addEdge link.1 link.2.1 link.2.2 =
      grown source g.nodes (edge :: edges) := by
  simp only [linkOf, Option.bind_eq_bind, Option.bind_eq_some_iff, Option.pure_def,
    Option.some.injEq] at hlink
  obtain ⟨caller, hcaller, callee, hcallee, rfl⟩ := hlink
  have hlookup (call : Call) : (grown source g.nodes edges).slot? call = g.slot? call := by
    rw [slot?, slot?, h.index]
    rfl
  have hs := (hlookup caller).trans (h.wellFormed.slot?_of_callAt? hcaller)
  have ht := (hlookup callee).trans (h.wellFormed.slot?_of_callAt? hcallee)
  have hfresh : (grown source g.nodes edges).edgeBetween? edge.source edge.target = none := by
    refine List.find?_eq_none.2 fun other hother hends => fresh other hother ?_
    obtain ⟨hsource, htarget⟩ := of_decide_eq_true hends
    exact Prod.ext hsource htarget
  simp only [CallGraph.addEdge, addNode_of_slot? hs, addNode_of_slot? ht, hs, ht,
    CallGraph.addEdgeBetween, hfresh]
  simp [CallGraph.insertEdge, grown, SlotPool.next, SlotPool.take, ← hslot]

theorem addLinks_grown (h : g.Grown)
    (order : (edges.map (·.slot)).reverse = List.range edges.length)
    (distinct : (edges.map Edge.ends).Nodup)
    (live : ∀ edge ∈ edges, (g.linkOf edge).isSome) :
    (grown source g.nodes []).addLinks (edges.reverse.filterMap g.linkOf) =
      grown source g.nodes edges := by
  induction edges with
  | nil => rfl
  | cons edge rest ih =>
    rw [List.map_cons, List.reverse_cons, List.length_cons, List.range_succ] at order
    obtain ⟨hrest, hlast⟩ := List.append_inj' order rfl
    obtain ⟨hfresh, hdistinct⟩ := List.nodup_cons.1 distinct
    obtain ⟨hedge, hlive⟩ := List.forall_mem_cons.1 live
    obtain ⟨link, hlink⟩ := Option.isSome_iff_exists.1 hedge
    have hsplit : (edge :: rest).reverse.filterMap g.linkOf =
        rest.reverse.filterMap g.linkOf ++ [link] := by
      simp [hlink]
    have hstep : (grown source g.nodes []).addLinks (rest.reverse.filterMap g.linkOf ++ [link]) =
        (grown source g.nodes rest).addEdge link.1 link.2.1 link.2.2 := by
      rw [← ih hrest hdistinct hlive, addLinks, List.foldl_append]
      rfl
    rw [hsplit, hstep]
    refine addEdge_grown h hlink (List.singleton_inj.1 hlast) fun other hother heq => hfresh ?_
    exact heq ▸ List.mem_map_of_mem hother

theorem Grown.unionWith_empty (h : g.Grown) :
    (CallGraph.empty source).unionWith combine g = grown source g.nodes g.edges := by
  have hlive : ∀ edge ∈ g.edges, (g.linkOf edge).isSome := by
    intro edge hedge
    obtain ⟨a, ha, b, hb, hs, ht⟩ := h.wellFormed.exists_ends hedge
    have hsource := h.wellFormed.callAt?_eq_some.2 ⟨a, ha, hs, rfl⟩
    have htarget := h.wellFormed.callAt?_eq_some.2 ⟨b, hb, ht, rfl⟩
    simp [linkOf, hsource, htarget]
  rw [unionWith_eq, addNodes_empty h.slots h.wellFormed.distinct_identities, h.links_eq,
    addLinks_grown h h.edgeOrder h.wellFormed.ends_nodup hlive]

end CallGraph

end AttackSurface
