import AttackSurface.Graph.Reconcile
import AttackSurface.Proofs.Graph.Signs

/-! Renaming the node of a call. The renamed graph is the image of the old one under the map that
sends the call to its new identity: nodes and edges that fall together show the signs of each. -/
namespace AttackSurface.CallGraph

variable {α : Type} {g : CallGraph α} {call renamed u v x y : Call} {node : Node α}
  {old new slot : Nat}

/-- What a call is after a renaming. -/
def relabel (call renamed u : Call) : Call := if u.identity = call.identity then renamed else u

/-! ## Edges added once more -/

theorem nodes_addRedirected (g : CallGraph α) (old new : Nat) (edges : List Edge) :
    (g.addRedirected old new edges).nodes = g.nodes :=
  List.foldlRecOn _ _ (motive := fun added : CallGraph α => added.nodes = g.nodes) rfl
    fun _ hg _ _ => nodes_addEdgeBetween.trans hg

theorem index_addRedirected (g : CallGraph α) (old new : Nat) (edges : List Edge) :
    (g.addRedirected old new edges).index = g.index :=
  List.foldlRecOn _ _ (motive := fun added : CallGraph α => added.index = g.index) rfl
    fun _ hg _ _ => index_addEdgeBetween.trans hg

theorem WellFormed.addRedirected (h : g.WellFormed) (edges : List Edge)
    (live : ∀ edge ∈ edges, redirect old new edge.source ∈ g.slots ∧
      redirect old new edge.target ∈ g.slots) : (g.addRedirected old new edges).WellFormed := by
  unfold CallGraph.addRedirected
  induction edges generalizing g with
  | nil => exact h
  | cons edge rest ih =>
    obtain ⟨⟨hs, ht⟩, hrest⟩ := List.forall_mem_cons.1 live
    exact ih (h.addEdgeBetween hs ht edge.attrs) (by simpa using hrest)

theorem joinShows_addRedirected (h : g.WellFormed) (edges : List Edge)
    (live : ∀ edge ∈ edges, redirect old new edge.source ∈ g.slots ∧
      redirect old new edge.target ∈ g.slots) {sign : EdgeSign} {source target : Nat} :
    (g.addRedirected old new edges).joinShows sign source target ↔
      g.joinShows sign source target ∨ ∃ edge ∈ edges, redirect old new edge.source = source ∧
        redirect old new edge.target = target ∧ edge.attrs.shows sign := by
  unfold addRedirected
  induction edges generalizing g with
  | nil => simp
  | cons edge rest ih =>
    obtain ⟨⟨hs, ht⟩, hrest⟩ := List.forall_mem_cons.1 live
    rw [List.foldl_cons, ih (h.addEdgeBetween hs ht edge.attrs) (by simpa using hrest),
      h.joinShows_addEdgeBetween, List.exists_mem_cons_iff, or_assoc]

/-! ## One renaming -/

/-- The graph in which the node has its new identity, but not its edges yet. -/
def moved (g : CallGraph α) (call renamed : Call) (node : Node α) : CallGraph α :=
  (g.removeNode call).addNode renamed node.attrs

theorem rename_of_none (hn : g.node? call = none) : g.rename call renamed = g := by
  simp [rename, hn]

theorem rename_of_some (hn : g.node? call = some node)
    (hs : (g.moved call renamed node).slot? renamed = some slot) :
    g.rename call renamed =
      (g.moved call renamed node).addRedirected node.slot slot (g.edgesAt node.slot) := by
  simp only [moved] at hs
  simp only [rename, hn, hs, moved]

theorem exists_slot?_moved (g : CallGraph α) (call renamed : Call) (node : Node α) :
    ∃ slot, (g.moved call renamed node).slot? renamed = some slot :=
  slot?_addNode_self (g.removeNode call) renamed node.attrs

/-- The edges that are added once more touch no node. -/
theorem nodes_rename (hn : g.node? call = some node) :
    (g.rename call renamed).nodes = (g.moved call renamed node).nodes := by
  obtain ⟨slot, hs⟩ := exists_slot?_moved g call renamed node
  rw [rename_of_some hn hs, nodes_addRedirected]

theorem index_rename (hn : g.node? call = some node) :
    (g.rename call renamed).index = (g.moved call renamed node).index := by
  obtain ⟨slot, hs⟩ := exists_slot?_moved g call renamed node
  rw [rename_of_some hn hs, index_addRedirected]

/-- What is known of the nodes is what the removal and the new node leave. -/
theorem attrs?_rename (hn : g.node? call = some node) :
    (g.rename call renamed).attrs? x = (g.moved call renamed node).attrs? x := by
  unfold attrs? node? slot? nodeAt?
  rw [nodes_rename hn, index_rename hn]

theorem mem_edgesAt {edge : Edge} :
    edge ∈ g.edgesAt slot ↔ edge ∈ g.edges ∧ (edge.source = slot ∨ edge.target = slot) := by
  by_cases hs : edge.source = slot <;> simp [edgesAt, edgesFrom, edgesTo, hs]

namespace WellFormed

variable (h : g.WellFormed)

include h

theorem node?_eq_none : g.node? call = none ↔ call.identity ∉ g.identities := by
  rw [← h.isSome_attrs?, attrs?, Option.isSome_map]
  cases g.node? call <;> simp

theorem slot?_of_node? (hn : g.node? call = some node) : g.slot? call = some node.slot := by
  obtain ⟨hmem, hi⟩ := h.node?_eq_some.1 hn
  exact h.slot?_eq_some.2 ⟨node, hmem, hi, rfl⟩

theorem moved (call renamed : Call) (node : Node α) : (g.moved call renamed node).WellFormed :=
  (h.removeNode call).addNode renamed node.attrs

/-- The slots of the calls follow them to their new identities. -/
theorem slot?_moved (hn : g.node? call = some node)
    (hs : (g.moved call renamed node).slot? renamed = some slot) {place : Nat}
    (hu : g.slot? u = some place) :
    (g.moved call renamed node).slot? (relabel call renamed u) =
      some (redirect node.slot slot place) := by
  have hcall := h.slot?_of_node? hn
  by_cases hcu : u.identity = call.identity
  · have hplace : place = node.slot := by
      rw [slot?_congr hcu, hcall] at hu
      exact (Option.some.inj hu).symm
    rw [relabel, if_pos hcu, redirect, if_pos hplace, hs]
  · have hplace : place ≠ node.slot := fun heq => hcu ((h.slot?_eq_slot? hcall).1 (heq ▸ hu))
    rw [relabel, if_neg hcu, redirect, if_neg hplace]
    apply slot?_addNode_of_some
    rw [slot?_removeNode, if_neg hcu, hu]

theorem redirect_live (hn : g.node? call = some node)
    (hs : (g.moved call renamed node).slot? renamed = some slot) (edge : Edge)
    (he : edge ∈ g.edgesAt node.slot) :
    redirect node.slot slot edge.source ∈ (g.moved call renamed node).slots ∧
      redirect node.slot slot edge.target ∈ (g.moved call renamed node).slots := by
  have hlive {place : Nat} (hp : place ∈ g.slots) :
      redirect node.slot slot place ∈ (g.moved call renamed node).slots := by
    obtain ⟨holder, hmem, rfl⟩ := mem_slots.1 hp
    exact (h.moved call renamed node).mem_slots_of_slot?
      (h.slot?_moved hn hs (h.slot?_of_mem hmem))
  exact (h.edges_live edge (mem_edgesAt.1 he).1).imp hlive hlive

theorem joinShows_moved (hn : g.node? call = some node) {sign : EdgeSign} {source target : Nat} :
    (g.moved call renamed node).joinShows sign source target ↔
      ∃ edge ∈ g.edges, (edge.source ≠ node.slot ∧ edge.target ≠ node.slot) ∧
        edge.source = source ∧ edge.target = target ∧ edge.attrs.shows sign := by
  rw [(h.moved call renamed node).joinShows_iff]
  simp only [CallGraph.moved, CallGraph.addNode, edges_addNodeWith,
    mem_edges_removeNode (h.slot?_of_node? hn), and_assoc]

theorem rename (call renamed : Call) : (g.rename call renamed).WellFormed := by
  cases hn : g.node? call with
  | none => exact (rename_of_none hn).symm ▸ h
  | some node =>
    obtain ⟨slot, hs⟩ := exists_slot?_moved g call renamed node
    rw [rename_of_some hn hs]
    exact (h.moved call renamed node).addRedirected _ (h.redirect_live hn hs)

/-- Some slot takes the place of the old one, for calls and edges alike. -/
theorem slots_rename (hn : g.node? call = some node) (renamed : Call) :
    ∃ slot, (∀ u place, g.slot? u = some place →
        (g.rename call renamed).slot? (relabel call renamed u) =
          some (redirect node.slot slot place)) ∧
      ∀ sign source target, (g.rename call renamed).joinShows sign source target ↔
        ∃ edge ∈ g.edges, redirect node.slot slot edge.source = source ∧
          redirect node.slot slot edge.target = target ∧ edge.attrs.shows sign := by
  obtain ⟨slot, hs⟩ := exists_slot?_moved g call renamed node
  have hlive := h.redirect_live hn hs
  have hmoved := h.moved call renamed node
  refine ⟨slot, fun u place hu => ?_, fun sign source target => ?_⟩
  · rw [slot?, index_rename hn]
    exact h.slot?_moved hn hs hu
  · rw [rename_of_some hn hs, joinShows_addRedirected hmoved _ hlive, h.joinShows_moved hn]
    constructor
    · rintro (⟨edge, he, ⟨hsource, htarget⟩, hends⟩ | ⟨edge, he, hends⟩)
      · refine ⟨edge, he, ?_⟩
        rwa [redirect, redirect, if_neg hsource, if_neg htarget]
      · exact ⟨edge, (mem_edgesAt.1 he).1, hends⟩
    · rintro ⟨edge, he, hends⟩
      -- An edge at the old slot went with the node and is added again; any other never left.
      by_cases hat : edge.source = node.slot ∨ edge.target = node.slot
      · exact .inr ⟨edge, mem_edgesAt.2 ⟨he, hat⟩, hends⟩
      · refine .inl ⟨edge, he, not_or.1 hat, ?_⟩
        rwa [redirect, redirect, if_neg (not_or.1 hat).1, if_neg (not_or.1 hat).2] at hends

theorem relabel_of_absent (hn : g.node? call = none) (hu : u.identity ∈ g.identities) :
    relabel call renamed u = u :=
  if_neg fun hi : u.identity = call.identity => h.node?_eq_none.1 hn (hi ▸ hu)

/-- A node of the renamed graph shows what the nodes show that became it. -/
theorem nodeShows_rename (call renamed : Call) {sign : NodeSign} :
    (g.rename call renamed).nodeShows sign x ↔
      ∃ u, (relabel call renamed u).identity = x.identity ∧ g.nodeShows sign u := by
  cases hn : g.node? call with
  | none =>
    rw [rename_of_none hn]
    constructor
    · intro hx
      exact ⟨x, by rw [h.relabel_of_absent hn (h.mem_identities_of_nodeShows hx)], hx⟩
    · rintro ⟨u, hi, hu⟩
      rw [h.relabel_of_absent hn (h.mem_identities_of_nodeShows hu)] at hi
      rwa [← nodeShows_congr sign hi]
  | some node =>
    have hnode : g.nodeShows sign call = node.attrs.shows sign := by simp [nodeShows, attrs?, hn]
    rw [nodeShows, attrs?_rename hn, ← nodeShows, CallGraph.moved,
      (h.removeNode call).nodeShows_addNode, h.nodeShows_removeNode]
    constructor
    · rintro (⟨hx, hi⟩ | ⟨hi, hx⟩)
      · exact ⟨x, by rw [relabel, if_neg hi], hx⟩
      · exact ⟨call, by rw [relabel, if_pos rfl, hi], hnode ▸ hx⟩
    · rintro ⟨u, hi, hu⟩
      by_cases hcall : u.identity = call.identity
      · rw [relabel, if_pos hcall] at hi
        exact .inr ⟨hi.symm, by rwa [← hnode, ← nodeShows_congr sign hcall]⟩
      · rw [relabel, if_neg hcall] at hi
        exact .inl ⟨by rwa [← nodeShows_congr sign hi], hi ▸ hcall⟩

/-- An edge of the renamed graph shows what the edges show that became it. -/
theorem edgeShows_rename (call renamed : Call) {sign : EdgeSign} :
    (g.rename call renamed).edgeShows sign x y ↔
      ∃ u v, (relabel call renamed u).identity = x.identity ∧
        (relabel call renamed v).identity = y.identity ∧ g.edgeShows sign u v := by
  cases hn : g.node? call with
  | none =>
    rw [rename_of_none hn]
    constructor
    · intro hedge
      obtain ⟨hx, hy⟩ := h.mem_identities_of_edgeShows hedge
      exact ⟨x, y, by rw [h.relabel_of_absent hn hx], by rw [h.relabel_of_absent hn hy], hedge⟩
    · rintro ⟨u, v, hx, hy, hedge⟩
      obtain ⟨hu, hv⟩ := h.mem_identities_of_edgeShows hedge
      rw [h.relabel_of_absent hn hu] at hx
      rw [h.relabel_of_absent hn hv] at hy
      rwa [← edgeShows_congr sign hx hy]
  | some node =>
    obtain ⟨slot, hslots, hjoins⟩ := h.slots_rename hn renamed
    have hnew := h.rename call renamed
    constructor
    · intro hedge
      obtain ⟨source, target, hx, hy, hjoin⟩ := edgeShows_iff_joinShows.1 hedge
      obtain ⟨edge, he, rfl, rfl, hsign⟩ := (hjoins sign _ _).1 hjoin
      obtain ⟨a, ha, b, hb, hsource, htarget⟩ := h.exists_ends he
      have hu := hsource ▸ h.slot?_of_mem ha
      have hv := htarget ▸ h.slot?_of_mem hb
      exact ⟨a.call, b.call, hnew.identity_eq_of_slot? (hslots _ _ hu) hx,
        hnew.identity_eq_of_slot? (hslots _ _ hv) hy, h.edgeShows_iff.2 ⟨edge, he, hu, hv, hsign⟩⟩
    · rintro ⟨u, v, hx, hy, hedge⟩
      obtain ⟨edge, he, hu, hv, hsign⟩ := h.edgeShows_iff.1 hedge
      refine edgeShows_iff_joinShows.2 ⟨_, _, ?_, ?_,
        (hjoins sign _ _).2 ⟨edge, he, rfl, rfl, hsign⟩⟩
      · exact slot?_congr hx ▸ hslots u _ hu
      · exact slot?_congr hy ▸ hslots v _ hv

end WellFormed

end AttackSurface.CallGraph
