import AttackSurface.Proofs.Graph.Loaded

/-! Calls and returns. A listing tells of a call by an edge from the caller to the callee and one
back, and whatever becomes of the graph afterwards, the two stay together. -/
namespace AttackSurface

theorem EdgeAttrs.shows_call_mirror (sign : EdgeSign) (producer : Producer) :
    (call producer).shows sign.mirror = (returning producer).shows sign := by
  cases sign <;> rfl

theorem EdgeAttrs.shows_returning_mirror (sign : EdgeSign) (producer : Producer) :
    (returning producer).shows sign.mirror = (call producer).shows sign := by
  cases sign <;> rfl

namespace CallGraph

variable {α : Type}

/-- Every edge is a call or a return, and the edge back shows the mirrored signs. -/
structure Paired (g : CallGraph α) : Prop extends g.WellFormed where
  mirrored : ∀ sign u v, g.edgeShows sign u v → g.edgeShows sign.mirror v u
  directed : ∀ u v, g.edgeShows .present u v → g.edgeShows .call u v ∨ g.edgeShows .returning u v

variable {g other : CallGraph α} {u v : Call}

/-- Weighing changes no edge but for its weight. -/
theorem edgeAttrs?_assignWeights (weights : Weights) :
    (g.assignWeights weights).edgeAttrs? u v = (g.edgeAttrs? u v).map fun attrs =>
      { attrs with weight := some (weights.weigh attrs) } := by
  have hjoined (source target : Nat) : (g.assignWeights weights).joined? source target =
      (g.joined? source target).map fun attrs =>
        { attrs with weight := some (weights.weigh attrs) } := by
    unfold joined? edgeBetween? CallGraph.assignWeights
    rw [List.find?_map, Option.map_map, Option.map_map]
    rfl
  have hslot (call : Call) : (g.assignWeights weights).slot? call = g.slot? call := rfl
  rw [edgeAttrs?_eq_joined?, edgeAttrs?_eq_joined?, hslot, hslot]
  cases g.slot? u with
  | none => rfl
  | some source =>
    cases g.slot? v with
    | none => rfl
    | some target => exact hjoined source target

namespace Paired

theorem edgeShows_mirror (h : g.Paired) (sign : EdgeSign) :
    g.edgeShows sign u v ↔ g.edgeShows sign.mirror v u := by
  constructor
  · exact h.mirrored sign u v
  · intro hedge
    have hback := h.mirrored sign.mirror v u hedge
    rwa [EdgeSign.mirror_mirror] at hback

theorem directed_of_edgeAttrs? (h : g.Paired) {attrs : EdgeAttrs}
    (hattrs : g.edgeAttrs? u v = some attrs) : attrs.isCall ∨ attrs.isReturn := by
  have hdirected := h.directed u v (by rw [edgeShows_of_edgeAttrs? hattrs]; rfl)
  rwa [edgeShows_of_edgeAttrs? hattrs, edgeShows_of_edgeAttrs? hattrs] at hdirected

theorem isSome_edgeAttrs? (h : g.Paired) :
    (g.edgeAttrs? u v).isSome = (g.edgeAttrs? v u).isSome := by
  rw [← edgeShows_present, ← edgeShows_present]
  exact Bool.eq_iff_iff.2 (h.edgeShows_mirror .present)

/-! ## Operations -/

theorem empty (source : String) : (empty source : CallGraph α).Paired :=
  { wellFormed_empty source with
    mirrored := fun sign u v h => by simp [edgeShows, edgeAttrs?, slot?, CallGraph.empty] at h
    directed := fun u v h => by simp [edgeShows, edgeAttrs?, slot?, CallGraph.empty] at h }

/-- A graph is paired if its edges come from those of a paired one, whatever becomes of the
calls. -/
theorem image (h : g.Paired) (hwf : other.WellFormed) (became : Call → Call → Prop)
    (edges : ∀ sign x y, other.edgeShows sign x y ↔
      ∃ u v, became u x ∧ became v y ∧ g.edgeShows sign u v) : other.Paired where
  toWellFormed := hwf
  mirrored sign x y hedge := by
    obtain ⟨u, v, hu, hv, huv⟩ := (edges sign x y).1 hedge
    exact (edges sign.mirror y x).2 ⟨v, u, hv, hu, h.mirrored sign u v huv⟩
  directed x y hedge := by
    obtain ⟨u, v, hu, hv, huv⟩ := (edges .present x y).1 hedge
    refine (h.directed u v huv).imp ?_ ?_
    · exact fun hcall => (edges .call x y).2 ⟨u, v, hu, hv, hcall⟩
    · exact fun hreturn => (edges .returning x y).2 ⟨u, v, hu, hv, hreturn⟩

/-- What does not show in edges does not matter. -/
theorem same (h : g.Paired) (hwf : other.WellFormed)
    (edges : ∀ sign u v, other.edgeShows sign u v = g.edgeShows sign u v) : other.Paired :=
  h.image hwf Eq fun sign x y => by simp [edges]

theorem withOrigin (h : g.Paired) (source : String) (errors : List LineError)
    (fragmentation : Option Fragmentation) : { g with source, errors, fragmentation }.Paired :=
  h.same (h.toWellFormed.withOrigin ..) fun _ _ _ => rfl

theorem addNode (h : g.Paired) (call : Call) (attrs : NodeAttrs α) : (g.addNode call attrs).Paired :=
  h.same (h.toWellFormed.addNode call attrs) fun _ _ _ => h.edgeShows_addNode

theorem removeNode (h : g.Paired) (call : Call) : (g.removeNode call).Paired := by
  refine h.image (h.toWellFormed.removeNode call)
    (fun u x => u = x ∧ x.identity ≠ call.identity) fun sign x y => ?_
  rw [h.edgeShows_removeNode]
  constructor
  · rintro ⟨hedge, hx, hy⟩
    exact ⟨x, y, ⟨rfl, hx⟩, ⟨rfl, hy⟩, hedge⟩
  · rintro ⟨_, _, ⟨rfl, hx⟩, ⟨rfl, hy⟩, hedge⟩
    exact ⟨hedge, hx, hy⟩

theorem rename (h : g.Paired) (call renamed : Call) : (g.rename call renamed).Paired :=
  h.image (h.toWellFormed.rename call renamed)
    (fun u x => (relabel call renamed u).identity = x.identity)
    fun _ _ _ => h.edgeShows_rename call renamed

theorem reconcile (h : g.Paired) (reference : CallGraph α) : (g.reconcile reference).Paired :=
  reconcile_induction (fun _ call renamed hg => hg.rename call renamed) h

theorem unionWith (h : g.Paired) (ho : other.Paired)
    (combine : NodeAttrs α → NodeAttrs α → NodeAttrs α) : (g.unionWith combine other).Paired where
  toWellFormed := h.toWellFormed.unionWith combine other
  mirrored sign u v hedge := by
    rw [h.edgeShows_unionWith ho.toWellFormed, Bool.or_eq_true] at hedge ⊢
    exact hedge.imp (h.mirrored sign u v) (ho.mirrored sign u v)
  directed u v hedge := by
    simp only [h.edgeShows_unionWith ho.toWellFormed, Bool.or_eq_true] at hedge ⊢
    rcases hedge with hedge | hedge
    · exact (h.directed u v hedge).imp .inl .inl
    · exact (ho.directed u v hedge).imp .inr .inr

theorem union (h : g.Paired) (ho : other.Paired) : (g.union other).Paired :=
  h.unionWith ho NodeAttrs.merge

theorem merge (h : g.Paired) (ho : other.Paired) : (g.merge other).Paired :=
  (((empty _).union (h.reconcile _)).union (ho.reconcile _)).withOrigin ..

theorem fragmentize (h : g.Paired) : g.fragmentize.Paired :=
  fragmentize_induction (fun _ call hg => hg.removeNode call) (fun _ _ hg => hg.withOrigin ..) h

theorem assignWeights (h : g.Paired) (weights : Weights) : (g.assignWeights weights).Paired := by
  refine h.same (h.toWellFormed.assignWeights weights) fun sign u v => ?_
  rw [edgeShows, edgeShows, edgeAttrs?_assignWeights, Option.any_map]
  cases sign <;> rfl

theorem assignRanks [Scalar α] (h : g.Paired) (params : RankParams α) (name : String) :
    (g.assignRanks params name).Paired :=
  h.same (h.toWellFormed.assignRanks params name) fun _ _ _ => rfl

/-! ## Listings -/

/-- The two edges of one call. -/
theorem addCall (h : g.Paired) (caller callee : Call) (producer : Producer) :
    ((g.addEdge caller callee (.call producer)).addEdge callee caller
      (.returning producer)).Paired := by
  have hcall := h.toWellFormed.addEdge caller callee (.call producer)
  have hedges (sign : EdgeSign) (u v : Call) :
      ((g.addEdge caller callee (.call producer)).addEdge callee caller
        (.returning producer)).edgeShows sign u v ↔
      (g.edgeShows sign u v ∨ u.identity = caller.identity ∧ v.identity = callee.identity ∧
        (EdgeAttrs.call producer).shows sign) ∨ u.identity = callee.identity ∧
        v.identity = caller.identity ∧ (EdgeAttrs.returning producer).shows sign := by
    rw [hcall.edgeShows_addEdge, h.edgeShows_addEdge]
  refine ⟨hcall.addEdge _ _ _, fun sign u v => ?_, fun u v => ?_⟩
  · simp only [hedges, EdgeAttrs.shows_call_mirror, EdgeAttrs.shows_returning_mirror]
    rintro ((hedge | ⟨hu, hv, hsign⟩) | ⟨hu, hv, hsign⟩)
    · exact .inl (.inl (h.mirrored sign u v hedge))
    · exact .inr ⟨hv, hu, hsign⟩
    · exact .inl (.inr ⟨hv, hu, hsign⟩)
  · simp only [hedges]
    rintro ((hedge | ⟨hu, hv, -⟩) | ⟨hu, hv, -⟩)
    · exact (h.directed u v hedge).imp (fun hc => .inl (.inl hc)) fun hr => .inl (.inl hr)
    · exact .inl (.inl (.inr ⟨hu, hv, rfl⟩))
    · exact .inr (.inr ⟨hu, hv, rfl⟩)

theorem record (h : g.Paired) (producer : Producer) (options : Options) (event : Event) :
    (g.record producer options event).Paired := by
  apply record_induction h
  · intro g call attrs hg
    exact hg.addNode call attrs
  · intro g caller callee hg
    exact hg.addCall caller callee producer

theorem ofTrace (source : String) (producer : Producer) (options : Options) (trace : Trace) :
    (ofTrace source producer options trace : CallGraph α).Paired :=
  (List.foldlRecOn _ _ (empty source) fun _ hg event _ =>
    hg.record producer options event).withOrigin ..

theorem addProfile (h : g.Paired) (ho : other.Paired) : (Gprof.addProfile g other).Paired :=
  (h.unionWith ho NodeAttrs.accumulate).withOrigin ..

end Paired

/-! ## Whole runs -/

theorem Loaded.paired [Scalar α] (h : Loaded g) : g.Paired := by
  induction h with
  | cflow h =>
    obtain ⟨trace, rfl⟩ := Cflow.exists_trace_of_load h
    exact .ofTrace ..
  | gprof h =>
    obtain ⟨trace, rfl⟩ := Gprof.exists_trace_of_load h
    exact .ofTrace ..
  | javaCalls h =>
    obtain ⟨trace, rfl⟩ := JavaCalls.exists_trace_of_load h
    exact .ofTrace ..
  | profiles paths any_order h =>
    exact Gprof.profiles_induction any_order (.empty _)
      (fun _ _ _ hg => hg.addProfile (.ofTrace ..)) h
  | reconcile _ _ ih _ => exact ih.reconcile _
  | union _ _ ih iho => exact ih.union iho
  | merge _ _ ih iho => exact ih.merge iho
  | fragmentize _ ih => exact ih.fragmentize
  | assignWeights _ weights ih => exact ih.assignWeights weights
  | assignRanks _ params name ih => exact ih.assignRanks params name

/-- However a graph was loaded and changed, an edge leads from `u` to `v` exactly if one leads back,
the one is a call exactly if the other is a return, both stem from the same listings, and every edge
is a call or a return. No edge of the graph escapes this look-up by its ends. -/
theorem Loaded.calls_return [Scalar α] (h : Loaded g) :
    (∀ u v,
      ((g.edgeAttrs? u v).isSome ↔ (g.edgeAttrs? v u).isSome) ∧
      ((g.edgeAttrs? u v).any (·.isCall) ↔ (g.edgeAttrs? v u).any (·.isReturn)) ∧
      ((g.edgeAttrs? u v).any (·.cflow) ↔ (g.edgeAttrs? v u).any (·.cflow)) ∧
      ((g.edgeAttrs? u v).any (·.gprof) ↔ (g.edgeAttrs? v u).any (·.gprof)) ∧
      ∀ attrs, g.edgeAttrs? u v = some attrs → attrs.isCall ∨ attrs.isReturn) ∧
    ∀ edge ∈ g.edges, ∃ u ∈ g.calls, ∃ v ∈ g.calls, g.edgeAttrs? u v = some edge.attrs := by
  have hp := h.paired
  refine ⟨fun u v => ⟨?_, hp.edgeShows_mirror .call, hp.edgeShows_mirror .cflow,
    hp.edgeShows_mirror .gprof, fun attrs hattrs => ?_⟩, fun edge he => ?_⟩
  · rw [← edgeShows_present, ← edgeShows_present]
    exact hp.edgeShows_mirror .present
  · have hpresent : g.edgeShows .present u v := by rw [edgeShows_present, hattrs]; rfl
    have hdirected := hp.directed u v hpresent
    rwa [edgeShows, edgeShows, hattrs] at hdirected
  · obtain ⟨a, ha, b, hb, hsource, htarget⟩ := hp.exists_ends he
    refine ⟨a.call, List.mem_map_of_mem ha, b.call, List.mem_map_of_mem hb, ?_⟩
    rw [hp.edgeAttrs?_eq_some]
    exact ⟨edge, he, hsource ▸ hp.slot?_of_mem ha, htarget ▸ hp.slot?_of_mem hb, rfl⟩

/-- A listing of two functions that call each other. -/
def mutualListing : Source :=
  .text ("f() <void f () at ./a.c:1>:\n    g() <void g () at ./a.c:5>:\n" ++
    "        f() <void f () at ./a.c:1>:\n")

def mutualCalls : CallGraph Rat :=
  .ofTrace "<text>" .cflow {} (Cflow.trace false
    ["f() <void f () at ./a.c:1>:", "    g() <void g () at ./a.c:5>:",
      "        f() <void f () at ./a.c:1>:"])

theorem load_mutualListing : Cflow.load [] mutualListing false = .ok mutualCalls := by
  rfl

theorem mutualCalls_return : Loaded mutualCalls ∧
    (mutualCalls.edgeAttrs? ⟨"f", "./a.c", .c, .function⟩ ⟨"g", "./a.c", .c, .function⟩).any
        (·.isCall) ∧
      (mutualCalls.edgeAttrs? ⟨"g", "./a.c", .c, .function⟩ ⟨"f", "./a.c", .c, .function⟩).any
        (·.isReturn) := by
  have hcall : (mutualCalls.edgeAttrs? ⟨"f", "./a.c", .c, .function⟩
      ⟨"g", "./a.c", .c, .function⟩).any (·.isCall) := by decide
  have hloaded := Loaded.cflow load_mutualListing
  exact ⟨hloaded, hcall, (hloaded.calls_return.1 _ _).2.1.1 hcall⟩

end CallGraph

end AttackSurface
