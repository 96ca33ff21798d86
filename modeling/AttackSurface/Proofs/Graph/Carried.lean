import AttackSurface.Proofs.Graph.Merge
import AttackSurface.Proofs.Graph.Quotient
import AttackSurface.Proofs.Surface

/-! Maps between call graphs that carry all signs of nodes and edges along. Such a map carries paths
along, so that nothing moves farther away and nothing leaves the attack surface. A merge carries
both of its graphs along. -/
namespace AttackSurface.CallGraph

variable {α : Type} {φ : Call → Call} {a b g other : CallGraph α} {direction : Direction}
  {kind : SurfaceKind} {u v : Call} {slot next place place' n : Nat}

/-- How many edges a shortest path between two calls has, if there is one. -/
def hops? (g : CallGraph α) (direction : Direction) (u v : Call) : Option Nat := do
  let start ← g.slot? u
  let slot ← g.slot? v
  (g.distances direction start).lookup slot

theorem hops?_eq_some :
    g.hops? direction u v = some n ↔ ∃ start slot, g.slot? u = some start ∧
      g.slot? v = some slot ∧ Shortest g.edges direction start n slot := by
  have hlookup (start slot : Nat) : (g.distances direction start).lookup slot = some n ↔
      Shortest g.edges direction start n slot := by
    constructor
    · intro hfound
      obtain ⟨before, after, hsplit, -⟩ := List.lookup_eq_some_iff.1 hfound
      exact mem_distances.1 (by simp [hsplit])
    · intro hshortest
      cases hfound : (g.distances direction start).lookup slot with
      | none =>
        have hother := List.lookup_eq_none_iff.1 hfound _ (mem_distances.2 hshortest)
        simp at hother
      | some m =>
        obtain ⟨before, after, hsplit, -⟩ := List.lookup_eq_some_iff.1 hfound
        have hm : Shortest g.edges direction start m slot :=
          mem_distances.1 (by simp [hsplit])
        rw [Nat.le_antisymm (hm.least hshortest.path) (hshortest.least hm.path)]
  simp only [hops?, Option.bind_eq_bind, Option.bind_eq_some_iff, hlookup]
  constructor
  · rintro ⟨start, hu, slot, hv, hshortest⟩
    exact ⟨start, slot, hu, hv, hshortest⟩
  · rintro ⟨start, slot, hu, hv, hshortest⟩
    exact ⟨start, hu, slot, hv, hshortest⟩

/-! ## Maps that carry signs along -/

/-- What the nodes and edges of `g` show is shown in `other` under `φ`. -/
structure Carries (φ : Call → Call) (g other : CallGraph α) : Prop where
  nodes : ∀ sign, ∀ u ∈ g.calls, g.nodeShows sign u → other.nodeShows sign (φ u)
  edges : ∀ sign, ∀ u ∈ g.calls, ∀ v ∈ g.calls, g.edgeShows sign u v →
    other.edgeShows sign (φ u) (φ v)

/-- The node in `slot` is carried to that in `place`. -/
def CarriedTo (φ : Call → Call) (g other : CallGraph α) (slot place : Nat) : Prop :=
  ∃ node ∈ g.nodes, node.slot = slot ∧ other.slot? (φ node.call) = some place

theorem WellFormed.slot?_of_carriedTo (hg : g.WellFormed) {node : Node α} (hn : node ∈ g.nodes)
    (hplace : CarriedTo φ g other node.slot place) : other.slot? (φ node.call) = some place := by
  obtain ⟨node', hn', hslot, hfound⟩ := hplace
  rwa [hg.eq_of_slot hn' hn hslot] at hfound

namespace Carries

theorem hasMark (h : Carries φ g other) {mark : Mark} (hu : u ∈ g.calls)
    (hmark : g.hasMark u mark) : other.hasMark (φ u) mark :=
  h.nodes (.mark mark) u hu hmark

section

variable (h : Carries φ g other) (hg : g.WellFormed) (ho : other.WellFormed)

include h hg ho

theorem mem_identities (hu : u ∈ g.calls) : (φ u).identity ∈ other.identities := by
  have hshown : g.nodeShows .present u := hg.nodeShows_present.2 (List.mem_map_of_mem hu)
  exact ho.nodeShows_present.1 (h.nodes _ u hu hshown)

theorem exists_place (hslot : slot ∈ g.slots) : ∃ place, CarriedTo φ g other slot place := by
  obtain ⟨node, hn, rfl⟩ := mem_slots.1 hslot
  have hfound := ho.isSome_slot?.2 (h.mem_identities hg ho (List.mem_map_of_mem hn))
  obtain ⟨place, hplace⟩ := Option.isSome_iff_exists.1 hfound
  exact ⟨place, node, hn, rfl, hplace⟩

theorem leads (hplace : CarriedTo φ g other slot place) (hplace' : CarriedTo φ g other next place')
    (hleads : Leads g.edges direction slot next) : Leads other.edges direction place place' := by
  obtain ⟨node, hn, rfl, hfound⟩ := hplace
  obtain ⟨node', hn', rfl, hfound'⟩ := hplace'
  obtain ⟨edge, he, hstart, hfinish⟩ := hleads
  -- The edge is one between the calls in its slots, and so is its image.
  have hcarried {m m' : Node α} {p p' : Nat} (hm : m ∈ g.nodes) (hm' : m' ∈ g.nodes)
      (hsource : edge.source = m.slot) (htarget : edge.target = m'.slot)
      (hp : other.slot? (φ m.call) = some p) (hp' : other.slot? (φ m'.call) = some p') :
      ∃ image ∈ other.edges, image.source = p ∧ image.target = p' := by
    have hshown : g.edgeShows .present m.call m'.call := by
      rw [hg.edgeShows_iff, hg.slot?_of_mem hm, hg.slot?_of_mem hm']
      exact ⟨edge, he, congrArg some hsource.symm, congrArg some htarget.symm, rfl⟩
    obtain ⟨image, himage, hfrom, hto, -⟩ := ho.edgeShows_iff.1
      (h.edges _ _ (List.mem_map_of_mem hm) _ (List.mem_map_of_mem hm') hshown)
    rw [hp] at hfrom
    rw [hp'] at hto
    exact ⟨image, himage, (Option.some.inj hfrom).symm, (Option.some.inj hto).symm⟩
  cases direction with
  | forward => exact hcarried hn hn' hstart hfinish hfound hfound'
  | backward =>
    obtain ⟨image, himage, hfrom, hto⟩ := hcarried hn' hn hfinish hstart hfound' hfound
    exact ⟨image, himage, hto, hfrom⟩

/-- A path is carried to a path of as many edges. -/
theorem path (hpath : Path g.edges direction slot n next) (hplace : CarriedTo φ g other slot place)
    (hplace' : CarriedTo φ g other next place') : Path other.edges direction place n place' := by
  induction hpath generalizing place' with
  | here =>
    obtain ⟨node, hn, rfl, hfound⟩ := hplace
    rw [hg.slot?_of_carriedTo hn hplace'] at hfound
    cases hfound
    exact .here
  | onto hpath hlast ih =>
    obtain ⟨edge, he, rfl, -⟩ := id hlast
    have hlive : direction.start edge ∈ g.slots := by
      obtain ⟨hsource, htarget⟩ := hg.edges_live edge he
      cases direction with
      | forward => exact hsource
      | backward => exact htarget
    obtain ⟨middle, hmiddle⟩ := h.exists_place hg ho hlive
    exact (ih hmiddle).onto (h.leads hg ho hmiddle hplace' hlast)

/-- What a point of the surface exposes is exposed by its image. -/
theorem exposed (hexposed : g.Exposed kind slot) (hplace : CarriedTo φ g other slot place) :
    other.Exposed kind place := by
  obtain ⟨point, hpoint, hmark, hpath⟩ := hexposed
  obtain ⟨hops, hpath⟩ := exists_path_iff.2 hpath
  obtain ⟨start, hstart⟩ := h.exists_place hg ho (mem_slots_of_mem hpoint)
  have hcarried := h.path hg ho hpath hstart hplace
  obtain ⟨image, himage, hsame, rfl⟩ := ho.slot?_eq_some.1 (hg.slot?_of_carriedTo hpoint hstart)
  have hshown : g.nodeShows (.mark kind.mark) point.call := by
    rw [nodeShows_of_attrs? (hg.attrs?_of_mem hpoint)]
    exact hmark
  have himageShown := h.nodes _ _ (List.mem_map_of_mem hpoint) hshown
  rw [← nodeShows_congr _ hsame, nodeShows_of_attrs? (ho.attrs?_of_mem himage)] at himageShown
  exact ⟨image, himage, himageShown, exists_path_iff.1 ⟨hops, hcarried⟩⟩

theorem attackSurface (hu : u ∈ g.attackSurface) :
    ∃ x ∈ other.attackSurface, x.identity = (φ u).identity := by
  obtain ⟨node, hn, hexposed, rfl⟩ := mem_attackSurface.1 hu
  obtain ⟨place, hplace⟩ := h.exists_place hg ho (mem_slots_of_mem hn)
  obtain ⟨image, himage, hsame, rfl⟩ := ho.slot?_eq_some.1 (hg.slot?_of_carriedTo hn hplace)
  have hcarried : other.Exposed .entry image.slot ∨ other.Exposed .exit image.slot :=
    hexposed.imp (h.exposed hg ho · hplace) (h.exposed hg ho · hplace)
  exact ⟨image.call, mem_attackSurface.2 ⟨image, himage, hcarried, rfl⟩, hsame⟩

theorem hops? (hu : u ∈ g.calls) (hv : v ∈ g.calls) (hn : g.hops? direction u v = some n) :
    ∃ m ≤ n, other.hops? direction (φ u) (φ v) = some m := by
  obtain ⟨start, slot, hstart, hslot, hshortest⟩ := hops?_eq_some.1 hn
  obtain ⟨node, hnode, rfl⟩ := List.mem_map.1 hu
  obtain ⟨node', hnode', rfl⟩ := List.mem_map.1 hv
  obtain rfl : node.slot = start := Option.some.inj ((hg.slot?_of_mem hnode).symm.trans hstart)
  obtain rfl : node'.slot = slot := Option.some.inj ((hg.slot?_of_mem hnode').symm.trans hslot)
  obtain ⟨place, hplace⟩ := h.exists_place hg ho (mem_slots_of_mem hnode)
  obtain ⟨place', hplace'⟩ := h.exists_place hg ho (mem_slots_of_mem hnode')
  obtain ⟨m, hle, hleast⟩ := (h.path hg ho hshortest.path hplace hplace').exists_shortest
  have hfrom := hg.slot?_of_carriedTo hnode hplace
  have hto := hg.slot?_of_carriedTo hnode' hplace'
  exact ⟨m, hle, hops?_eq_some.2 ⟨place, place', hfrom, hto, hleast⟩⟩

end

end Carries

/-! ## Merges -/

section

variable (ha : a.WellFormed) (hb : b.WellFormed)

include ha hb

theorem WellFormed.carries_merge_left (plain : ∀ call ∈ a.calls, call.IsPlain) :
    Carries b.locate a (a.merge b) where
  nodes sign u hu hshown := by
    rw [ha.nodeShows_merge hb, Bool.or_eq_true]
    exact .inl ((ha.nodeShows_reconcile hb plain sign).2 ⟨u, hu, rfl, hshown⟩)
  edges sign u hu v hv hshown := by
    rw [ha.edgeShows_merge hb, Bool.or_eq_true]
    exact .inl ((ha.edgeShows_reconcile hb plain sign).2 ⟨u, hu, v, hv, rfl, rfl, hshown⟩)

theorem WellFormed.carries_merge_right (plain : ∀ call ∈ b.calls, call.IsPlain) :
    Carries a.locate b (a.merge b) where
  nodes sign u hu hshown := by
    rw [ha.nodeShows_merge hb, Bool.or_eq_true]
    exact .inr ((hb.nodeShows_reconcile ha plain sign).2 ⟨u, hu, rfl, hshown⟩)
  edges sign u hu v hv hshown := by
    rw [ha.edgeShows_merge hb, Bool.or_eq_true]
    exact .inr ((hb.edgeShows_reconcile ha plain sign).2 ⟨u, hu, v, hv, rfl, rfl, hshown⟩)

end

/-- The nodes of `g` are nodes of `merged` under `φ`, with all their marks. None of them leaves the
attack surface, and none comes to lie farther from another. -/
structure KeepsSurface (φ : Call → Call) (g merged : CallGraph α) : Prop where
  marks : ∀ u ∈ g.calls, merged.contains (φ u) ∧
    ∀ mark, g.hasMark u mark → merged.hasMark (φ u) mark
  surface : ∀ u ∈ g.attackSurface, ∃ x ∈ merged.attackSurface, x.identity = (φ u).identity
  hops : ∀ direction, ∀ u ∈ g.calls, ∀ v ∈ g.calls, ∀ n, g.hops? direction u v = some n →
    ∃ m ≤ n, merged.hops? direction (φ u) (φ v) = some m

theorem Carries.keepsSurface (h : Carries φ g other) (hg : g.WellFormed) (ho : other.WellFormed) :
    KeepsSurface φ g other where
  marks u hu := by
    exact ⟨ho.isSome_slot?.2 (h.mem_identities hg ho hu), fun _ hmark => h.hasMark hu hmark⟩
  surface u hu := h.attackSurface hg ho hu
  hops direction u hu v hv n hn := h.hops? hg ho hu hv hn

/-- Merging two graphs of plain functions takes no mark off a function of either graph, takes none
of them off the attack surface, and lengthens no shortest path. A function of known name only is
found in the merged graph where the other graph locates it; for the second graph it makes no
difference that the first one is reconciled before it. -/
theorem WellFormed.merge_keepsSurface (ha : a.WellFormed) (hb : b.WellFormed)
    (plain : ∀ call ∈ a.calls, call.IsPlain) (plain' : ∀ call ∈ b.calls, call.IsPlain) :
    KeepsSurface b.locate a (a.merge b) ∧ KeepsSurface a.locate b (a.merge b) ∧
    ∀ u ∈ b.calls, (a.reconcile b).locate u = a.locate u := by
  have hmerged := WellFormed.merge a b
  refine ⟨(ha.carries_merge_left hb plain).keepsSurface ha hmerged,
    (ha.carries_merge_right hb plain').keepsSurface hb hmerged, fun u hu => ?_⟩
  rw [locate, ha.located?_reconcile hb hu, locate]

/-- A listing that locates two functions, one of which calls the other. -/
def shortCall : CallGraph Rat :=
  (empty.addEdge { name := "main", signature := "a.c" } { name := "f", signature := "b.c" }
    (.call .cflow)).addNode { name := "main", signature := "a.c" } { marks := { entry := true } }

/-- A profile that knows the functions by name only, with a third one between them. -/
def longCall : CallGraph Rat :=
  ((empty.addEdge { name := "main" } { name := "helper" } (.call .gprof)).addEdge
    { name := "helper" } { name := "f" } (.call .gprof)).addNode { name := "f" }
      { marks := { exit := true } }

theorem built_shortCall : Built shortCall := ((Built.empty "").addEdge _ _ _).addNode _ _

theorem built_longCall : Built longCall :=
  (((Built.empty "").addEdge _ _ _).addEdge _ _ _).addNode _ _

theorem hops_of_longCall : shortCall.WellFormed ∧ longCall.WellFormed ∧
    (∀ call ∈ shortCall.calls, call.IsPlain) ∧ (∀ call ∈ longCall.calls, call.IsPlain) ∧
    longCall.hops? .forward { name := "main" } { name := "f" } = some 2 ∧
    (∃ m ≤ 2, (shortCall.merge longCall).hops? .forward { name := "main", signature := "a.c" }
      { name := "f", signature := "b.c" } = some m) ∧
    (∃ x ∈ (shortCall.merge longCall).attackSurface, x.identity = "helper") ∧
    (shortCall.merge longCall).hasMark { name := "f", signature := "b.c" } .exit := by
  have hplain : ∀ call ∈ shortCall.calls, call.IsPlain := by decide
  have hplain' : ∀ call ∈ longCall.calls, call.IsPlain := by decide
  have hhops : longCall.hops? .forward { name := "main" } { name := "f" } = some 2 := by
    decide +kernel
  have hmain : shortCall.locate { name := "main" } = { name := "main", signature := "a.c" } := by
    decide
  have hf : shortCall.locate { name := "f" } = { name := "f", signature := "b.c" } := by decide
  obtain ⟨-, hkept, -⟩ := built_shortCall.wellFormed.merge_keepsSurface built_longCall.wellFormed
    hplain hplain'
  refine ⟨built_shortCall.wellFormed, built_longCall.wellFormed, hplain, hplain', hhops, ?_, ?_, ?_⟩
  · rw [← hmain, ← hf]
    exact hkept.hops .forward _ (by decide) _ (by decide) 2 hhops
  · exact hkept.surface { name := "helper" } (by decide +kernel)
  · rw [← hf]
    exact (hkept.marks { name := "f" } (by decide)).2 .exit (by decide)

end AttackSurface.CallGraph
