import AttackSurface.Degree
import AttackSurface.Proofs.Graph.Descendants
import AttackSurface.Proofs.Graph.Fragments
import AttackSurface.Proofs.Graph.Pairing
import AttackSurface.Surface

/-! Connected components. Where every edge has one back, what a node reaches also reaches the node.
So the fragments of a graph of listings are its components under calls, whichever way these go. -/
namespace AttackSurface.CallGraph

variable {α : Type} {g : CallGraph α} {u v : Node α} {slot next : Nat}

/-- A chain of calls joins the two, whichever way each call goes. -/
def Joined (g : CallGraph α) : Call → Call → Prop :=
  Relation.ReflTransGen fun u v => g.edgeShows .call u v ∨ g.edgeShows .call v u

theorem WellFormed.leads_iff_edgeShows (h : g.WellFormed) (hu : u ∈ g.nodes) (hv : v ∈ g.nodes) :
    Leads g.edges .forward u.slot v.slot ↔ g.edgeShows .present u.call v.call := by
  rw [h.edgeShows_iff, h.slot?_of_mem hu, h.slot?_of_mem hv]
  simp only [Leads, Direction.start, Direction.finish, Option.some.injEq, EdgeAttrs.shows, and_true]
  refine exists_congr fun edge => and_congr_right fun _ => ?_
  rw [eq_comm, @eq_comm _ _ v.slot]

theorem WellFormed.exists_reached (h : g.WellFormed) (hu : u ∈ g.nodes) (direction : Direction) :
    ∃ calls, g.reached direction u.call = .ok calls := by
  unfold reached
  rw [require_eq_ok.2 (h.node?_eq_some.2 ⟨hu, rfl⟩)]
  exact ⟨_, rfl⟩

namespace Paired

variable (h : g.Paired)

include h

theorem edgeShows_present_iff {u v : Call} :
    g.edgeShows .present u v ↔ g.edgeShows .call u v ∨ g.edgeShows .call v u := by
  constructor
  · intro hedge
    exact (h.directed u v hedge).imp_right fun hreturn => h.mirrored .returning u v hreturn
  · rintro (hcall | hcall)
    · exact present_of_edgeShows hcall
    · exact h.mirrored .present v u (present_of_edgeShows hcall)

theorem leads_back (hlead : Leads g.edges .forward slot next) :
    Leads g.edges .forward next slot := by
  obtain ⟨edge, he, rfl, rfl⟩ := hlead
  obtain ⟨u, hu, v, hv, hsource, htarget⟩ := h.exists_ends he
  have hedge : Leads g.edges .forward u.slot v.slot := ⟨edge, he, hsource.symm, htarget.symm⟩
  rw [h.leads_iff_edgeShows hu hv] at hedge
  simp only [Direction.start, Direction.finish, ← hsource, ← htarget]
  exact (h.leads_iff_edgeShows hv hu).2 (h.mirrored .present _ _ hedge)

/-- Edges lead to the same slots along them and against them. -/
theorem leads_either : Leads g.edges .forward slot next ↔ Leads g.edges .backward slot next := by
  rw [leads_backward]
  exact ⟨h.leads_back, h.leads_back⟩

theorem reach_either (slot : Nat) : (g.reach .forward slot).Perm (g.reach .backward slot) := by
  have hsame : Leads g.edges .forward = Leads g.edges .backward := by
    ext slot next
    exact h.leads_either
  apply (List.perm_ext_iff_of_nodup (g.nodup_reach _ slot) (g.nodup_reach _ slot)).2
  intro other
  rw [mem_reach, mem_reach, hsame]

/-- What a call reaches is what reaches it, and sorted it is the same list. -/
theorem descendants_eq_ancestors (u : Call) : g.descendants u = g.ancestors u := by
  unfold descendants ancestors
  cases hu : g.node? u with
  | none => simp only [reached, require, hu, Except.map]
  | some node =>
    have hperm : (g.callsBeyond .forward node.slot).Perm (g.callsBeyond .backward node.slot) :=
      ((h.reach_either node.slot).filter _).filterMap _
    rw [reached_of_node? hu, reached_of_node? hu,
      sortCalls_eq_of_perm hperm (h.nodup_callsBeyond .forward node.slot)]

theorem mutual_iff {a b : Nat} :
    g.Mutual a b ↔ Relation.ReflTransGen (Leads g.edges .forward) a b := by
  have hsame : Leads g.edges .backward = Leads g.edges .forward := by
    ext slot next
    exact h.leads_either.symm
  refine and_iff_left_of_imp fun hpath => ?_
  rw [← reaches_backward, hsame]
  exact hpath

theorem length_edgesTo (slot : Nat) : (g.edgesTo slot).length = (g.edgesFrom slot).length := by
  have hedges : g.edges.Nodup := List.Nodup.of_map _ h.ends_nodup
  have hperm : ((g.edgesTo slot).map (·.source)).Perm ((g.edgesFrom slot).map (·.target)) := by
    refine (List.perm_ext_iff_of_nodup ?_ ?_).2 fun other => ?_
    · refine (hedges.filter _).map_on fun a ha b hb hsource => ?_
      rw [edgesTo, List.mem_filter, decide_eq_true_eq] at ha hb
      exact h.eq_of_ends ha.1 hb.1 hsource (ha.2.trans hb.2.symm)
    · refine (hedges.filter _).map_on fun a ha b hb htarget => ?_
      rw [edgesFrom, List.mem_filter, decide_eq_true_eq] at ha hb
      exact h.eq_of_ends ha.1 hb.1 (ha.2.trans hb.2.symm) htarget
    · have hinto : other ∈ (g.edgesTo slot).map (·.source) ↔ Leads g.edges .forward other slot := by
        simp [edgesTo, Leads, Direction.start, Direction.finish, and_assoc, and_comm]
      have hout : other ∈ (g.edgesFrom slot).map (·.target) ↔ Leads g.edges .forward slot other := by
        simp [edgesFrom, Leads, Direction.start, Direction.finish, and_assoc]
      rw [hinto, hout]
      exact ⟨h.leads_back, h.leads_back⟩
  simpa using hperm.length_eq

/-- Between nodes, calls in either direction join what edges lead to. -/
theorem joined_iff_mutual (hu : u ∈ g.nodes) (hv : v ∈ g.nodes) :
    g.Joined u.call v.call ↔ g.Mutual u.slot v.slot := by
  rw [h.mutual_iff]
  constructor
  · intro hjoined
    have hreached {w : Call} (hw : g.Joined u.call w) : ∃ slot, g.slot? w = some slot ∧
        Relation.ReflTransGen (Leads g.edges .forward) u.slot slot := by
      induction hw with
      | refl => exact ⟨u.slot, h.slot?_of_mem hu, .refl⟩
      | tail _ hcall ih =>
        obtain ⟨slot, hslot, hpath⟩ := ih
        obtain ⟨edge, he, hsource, htarget, -⟩ :=
          h.edgeShows_iff.1 (h.edgeShows_present_iff.2 hcall)
        rw [hslot, Option.some.injEq] at hsource
        exact ⟨edge.target, htarget, hpath.tail ⟨edge, he, hsource.symm, rfl⟩⟩
    obtain ⟨slot, hslot, hpath⟩ := hreached hjoined
    rw [h.slot?_of_mem hv, Option.some.injEq] at hslot
    rwa [hslot]
  · intro hpath
    have hjoined {slot : Nat} (hslot : Relation.ReflTransGen (Leads g.edges .forward) u.slot slot) :
        ∀ w ∈ g.nodes, w.slot = slot → g.Joined u.call w.call := by
      induction hslot with
      | refl =>
        intro w hw hwu
        rw [h.eq_of_slot hw hu hwu]
        exact .refl
      | tail _ hlead ih =>
        rintro w hw rfl
        obtain ⟨edge, he, rfl, -⟩ := id hlead
        obtain ⟨before, hbefore, hsource⟩ := mem_slots.1 (h.edges_live edge he).1
        refine (ih before hbefore hsource).tail (h.edgeShows_present_iff.1 ?_)
        rw [← h.leads_iff_edgeShows hbefore hw, hsource]
        exact hlead
    exact hjoined hpath v hv rfl

theorem exists_degree (hu : u ∈ g.nodes) : ∃ n, g.degree u.call = .ok ⟨n, n⟩ := by
  unfold degree degreeAt
  rw [require_eq_ok.2 (h.node?_eq_some.2 ⟨hu, rfl⟩), List.countP_true]
  exact ⟨(g.edgesFrom u.slot).length, by simp [Except.map, h.length_edgesTo]⟩

/-- All nodes are joined exactly if all slots reach each other. -/
theorem all_joined_iff : (∀ u ∈ g.calls, ∀ v ∈ g.calls, g.Joined u v) ↔
    ∀ a ∈ g.slots, ∀ b ∈ g.slots, g.Mutual a b := by
  simp only [calls, slots, List.forall_mem_map]
  refine forall₂_congr fun u hu => forall₂_congr fun v hv => ?_
  exact h.joined_iff_mutual hu hv

end Paired

/-- In a graph of listings, what a function reaches is what reaches it, as many edges enter it as
leave it, and its fragment has exactly the functions that calls join with it. Cutting the graph down
leaves it whole, as its only fragment, exactly if calls join all functions. -/
theorem Loaded.connected_components [Scalar α] (h : Loaded g) :
    (∀ u, g.descendants u = g.ancestors u) ∧
    (∀ u ∈ g.calls, ∃ calls, g.descendants u = .ok calls) ∧
    g.fragments.flatten.Perm g.calls ∧
    (∀ u ∈ g.calls, ∀ v ∈ g.calls,
      (∃ fragment ∈ g.fragments, u ∈ fragment ∧ v ∈ fragment) ↔ g.Joined u v) ∧
    (∀ u ∈ g.calls, ∃ n, g.degree u = .ok ⟨n, n⟩) ∧
    (g.nodes ≠ [] →
      ((∀ u ∈ g.calls, ∀ v ∈ g.calls, g.Joined u v) ↔
        g.fragmentize.fragmentation.map (·.count) = some 1) ∧
      ((∀ u ∈ g.calls, ∀ v ∈ g.calls, g.Joined u v) ↔ g.fragmentize.nodes = g.nodes) ∧
      ((∀ u ∈ g.calls, ∀ v ∈ g.calls, g.Joined u v) →
        g.fragmentize = { g with fragmentation := some ⟨1, 1⟩ })) := by
  have hp := h.paired
  refine ⟨fun u => ?_, fun u hu => ?_, hp.flatten_fragments_perm, fun u hu v hv => ?_,
    fun u hu => ?_, fun hne => ?_⟩
  · exact hp.descendants_eq_ancestors u
  · obtain ⟨a, ha, rfl⟩ := List.mem_map.1 hu
    exact hp.exists_reached ha .forward
  · obtain ⟨a, ha, rfl⟩ := List.mem_map.1 hu
    obtain ⟨b, hb, rfl⟩ := List.mem_map.1 hv
    rw [hp.exists_fragment_iff ha hb, hp.joined_iff_mutual ha hb]
  · obtain ⟨a, ha, rfl⟩ := List.mem_map.1 hu
    exact hp.exists_degree ha
  · have hwhole (hall : ∀ u ∈ g.calls, ∀ v ∈ g.calls, g.Joined u v) :
        g.fragmentize = { g with fragmentation := some ⟨1, 1⟩ } :=
      hp.fragmentize_of_mutual hne (hp.all_joined_iff.1 hall)
    refine ⟨⟨fun hall => ?_, fun hcount => ?_⟩, ⟨fun hall => ?_, fun hsame => ?_⟩, hwhole⟩
    · rw [hwhole hall]
      rfl
    · rw [hp.count_fragmentize hne, Option.some.injEq] at hcount
      exact hp.all_joined_iff.2 fun a ha b hb => hp.mutual_of_length_fragmentSlots hcount ha hb
    · rw [hwhole hall]
    · exact hp.all_joined_iff.2 fun a ha b hb => hp.mutual_of_nodes_fragmentize hne hsame ha hb

/-- A listing of two functions that each call another one. -/
def twoTreesListing : Source :=
  .text ("f() <void f () at ./a.c:1>:\n    g() <void g () at ./a.c:5>\n" ++
    "h() <void h () at ./a.c:9>:\n    k() <void k () at ./a.c:12>\n")

def twoTreesLines : List String := [
  "f() <void f () at ./a.c:1>:",
  "    g() <void g () at ./a.c:5>",
  "h() <void h () at ./a.c:9>:",
  "    k() <void k () at ./a.c:12>"]

def twoTrees : CallGraph Rat := .ofTrace "<text>" .cflow {} (Cflow.trace false twoTreesLines)

theorem load_twoTrees : Cflow.load [] twoTreesListing false = .ok twoTrees := by
  have hread : (Format.cflow false).listing [] twoTreesListing = .ok twoTreesLines := by
    decide +kernel
  exact Format.load_of_listing hread {}

theorem components_of_twoTrees : Loaded twoTrees ∧ twoTrees.nodes ≠ [] ∧
    twoTrees.Joined ⟨"g", "./a.c", .c, .function⟩ ⟨"f", "./a.c", .c, .function⟩ ∧
    ¬ twoTrees.Joined ⟨"g", "./a.c", .c, .function⟩ ⟨"h", "./a.c", .c, .function⟩ ∧
    twoTrees.fragmentize.nodes ≠ twoTrees.nodes := by
  have hloaded := Loaded.cflow load_twoTrees
  obtain ⟨-, -, -, hfragments, -, hwhole⟩ := hloaded.connected_components
  have hf : ⟨"f", "./a.c", .c, .function⟩ ∈ twoTrees.calls := by decide +kernel
  have hg : ⟨"g", "./a.c", .c, .function⟩ ∈ twoTrees.calls := by decide +kernel
  have hh : ⟨"h", "./a.c", .c, .function⟩ ∈ twoTrees.calls := by decide +kernel
  have hne : twoTrees.nodes ≠ [] := by
    intro hnone
    rw [calls, hnone] at hf
    cases hf
  have hapart : ¬ twoTrees.Joined ⟨"g", "./a.c", .c, .function⟩ ⟨"h", "./a.c", .c, .function⟩ := by
    rw [← hfragments _ hg _ hh]
    decide +kernel
  refine ⟨hloaded, hne, ?_, hapart, fun hsame => hapart ((hwhole hne).2.1.2 hsame _ hg _ hh)⟩
  rw [← hfragments _ hg _ hf]
  decide +kernel

end AttackSurface.CallGraph
