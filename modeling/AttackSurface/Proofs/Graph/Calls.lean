import AttackSurface.Proofs.Formats
import AttackSurface.Proofs.Graph.Listing

/-! The calls of a graph that was changed. They are those of the graphs it was made from and those
that the change names, so that what holds of all of these is kept. -/
namespace AttackSurface.CallGraph

variable {α : Type} {g other : CallGraph α} {call : Call} {P : Call → Prop}

/-- All calls of a graph have a property. -/
def AllCalls (P : Call → Prop) (g : CallGraph α) : Prop := ∀ call ∈ g.calls, P call

namespace AllCalls

theorem empty (source : String) : (empty source : CallGraph α).AllCalls P :=
  fun _ hcall => absurd hcall List.not_mem_nil

theorem addNodeWith (h : g.AllCalls P) (hcall : P call)
    (combine : NodeAttrs α → NodeAttrs α → NodeAttrs α) (attrs : NodeAttrs α) :
    (g.addNodeWith combine call attrs).AllCalls P := by
  intro x hx
  rcases mem_calls_addNodeWith.1 hx with hx | ⟨-, rfl⟩
  · exact h x hx
  · exact hcall

theorem addEdge (h : g.AllCalls P) {caller callee : Call} (hcaller : P caller) (hcallee : P callee)
    (attrs : EdgeAttrs) : (g.addEdge caller callee attrs).AllCalls P := by
  obtain ⟨source, target, -, -, hadd⟩ := addEdge_eq g caller callee attrs
  rw [AllCalls, hadd, calls, nodes_addEdgeBetween]
  exact (h.addNodeWith hcaller _ _).addNodeWith hcallee _ _

theorem removeNode (h : g.AllCalls P) (call : Call) : (g.removeNode call).AllCalls P := by
  have hkept : (g.removeNode call).nodes ⊆ g.nodes := by
    unfold CallGraph.removeNode
    split
    · exact List.filter_subset_self _
    · exact List.Subset.refl _
  exact fun x hx => h x (List.map_subset _ hkept hx)

theorem fragmentize (h : g.AllCalls P) : g.fragmentize.AllCalls P :=
  fragmentize_induction (fun _ call hg => hg.removeNode call) (fun _ _ hg => hg) h

theorem addNodes (h : g.AllCalls P) (combine : NodeAttrs α → NodeAttrs α → NodeAttrs α)
    {nodes : List (Node α)} (hnodes : ∀ node ∈ nodes, P node.call) :
    (g.addNodes combine nodes).AllCalls P :=
  List.foldlRecOn _ _ h fun _ hg node hnode => hg.addNodeWith (hnodes node hnode) _ _

theorem addLinks (h : g.AllCalls P) {links : List (Call × Call × EdgeAttrs)}
    (hlinks : ∀ link ∈ links, P link.1 ∧ P link.2.1) : (g.addLinks links).AllCalls P :=
  List.foldlRecOn _ _ h fun _ hg link hlink =>
    hg.addEdge (hlinks link hlink).1 (hlinks link hlink).2 _

theorem unionWith (h : g.AllCalls P) (ho : other.AllCalls P)
    (combine : NodeAttrs α → NodeAttrs α → NodeAttrs α) :
    (g.unionWith combine other).AllCalls P := by
  have hat {slot : Nat} (call : Call) (hcall : other.callAt? slot = some call) : P call := by
    obtain ⟨node, hnode, rfl⟩ := Option.map_eq_some_iff.1 hcall
    exact ho _ (List.mem_map_of_mem (List.mem_of_find?_eq_some hnode))
  rw [unionWith_eq]
  refine (h.addNodes combine fun node hnode => ho _ (List.mem_map_of_mem hnode)).addLinks ?_
  intro link hlink
  obtain ⟨edge, -, hsource, htarget, -⟩ := mem_links.1 hlink
  exact ⟨hat _ hsource, hat _ htarget⟩

/-- What holds of the places that the calls of a trace get holds of the calls of its graph. -/
theorem ofTrace {origin : String} {producer : Producer} {options : Options} {trace : Trace}
    (h : trace.All fun call => ∀ place, options.place? call = some place → P place) :
    (ofTrace origin producer options trace : CallGraph α).AllCalls P := by
  refine List.foldlRecOn (motive := AllCalls P) trace.events _ (empty origin) ?_
  intro g hg event hevent
  have htold : ∀ told ∈ event.nodesTold (α := α) producer options, P told.1 := by
    intro told htold
    rcases Event.mem_nodesTold.1 htold with ⟨seen, rfl, hplace, -⟩ |
      ⟨caller, callee, rfl, ⟨hplace, -⟩ | ⟨-, hplace, -⟩⟩
    · exact h _ hevent seen (List.mem_singleton_self _) _ hplace
    · exact h _ hevent caller (by simp [Event.calls]) _ hplace
    · exact h _ hevent callee (by simp [Event.calls]) _ hplace
  rw [record_eq]
  refine AllCalls.addLinks ?_ fun link hlink => ?_
  · exact List.foldlRecOn _ _ hg fun _ hg told hmem => hg.addNodeWith (htold told hmem) _ _
  · obtain ⟨⟨source, hsource, heq⟩, target, htarget, heq'⟩ :=
      Event.ends_of_linksTold (α := α) hlink
    exact ⟨heq ▸ htold source hsource, heq' ▸ htold target htarget⟩

end AllCalls

end AttackSurface.CallGraph
