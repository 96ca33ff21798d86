import AttackSurface.Proofs.Graph.Collapse
import AttackSurface.Proofs.Graph.Components
import Mathlib.Algebra.BigOperators.Group.Finset.Basic

/-! Degrees as counts of edges. Every edge enters one node and leaves one, the same one if it is a
loop, so that the degrees of all nodes count each edge once on either side. Between two nodes there
is one edge at most, so a node has as many edges as nodes that they join it with. -/
namespace AttackSurface

/-- Things of which each has one of the keys are counted key by key. -/
theorem sum_countP_key {β : Type} {key : β → Nat} {keys : List Nat} (nodup : keys.Nodup)
    {xs : List β} (keyed : ∀ x ∈ xs, key x ∈ keys) (p : β → Bool) :
    (keys.map fun k => (xs.filter (key · = k)).countP p).sum = xs.countP p := by
  have hcount (k : Nat) : (xs.filter (key · = k)).countP p =
      Multiset.count k (((xs.filter p).map key : List Nat) : Multiset Nat) := by
    rw [Multiset.coe_count, List.count_eq_countP, List.countP_map, List.countP_filter,
      List.countP_filter]
    apply List.countP_congr
    intro x _
    simp [and_comm]
  simp only [hcount]
  rw [← List.sum_toFinset _ nodup, Multiset.sum_count_eq_card, Multiset.coe_card,
    List.length_map, List.countP_eq_length_filter]
  intro k hk
  obtain ⟨x, hx, rfl⟩ := List.mem_map.1 (Multiset.mem_coe.1 hk)
  exact List.mem_toFinset.2 (keyed x (List.mem_of_mem_filter hx))

namespace CallGraph

variable {α : Type} {g : CallGraph α} {node : Node α} {sign : EdgeSign}

/-- A table with one entry for each node, of the edges that show a sign: `total` of them in all,
which the entries count once where they enter and once where they leave. -/
structure Counts (g : CallGraph α) (sign : EdgeSign) (total : Nat) (table : List (Call × Degree)) :
    Prop where
  calls : table.map (·.1) = g.calls
  sum_incoming : (table.map (·.2.incoming)).sum = total
  sum_outgoing : (table.map (·.2.outgoing)).sum = total
  incoming : ∀ {u degree}, (u, degree) ∈ table →
    degree.incoming = g.calls.countP fun v => g.edgeShows sign v u
  outgoing : ∀ {u degree}, (u, degree) ∈ table →
    degree.outgoing = g.calls.countP fun v => g.edgeShows sign u v

/-- The degrees of all nodes over the edges that show a sign. -/
def degreeTable (g : CallGraph α) (sign : EdgeSign) : List (Call × Degree) :=
  g.nodes.map fun node => (node.call, g.degreeAt (·.attrs.shows sign) node.slot)

theorem degrees_eq_degreeTable (g : CallGraph α) : g.degrees = g.degreeTable .present := rfl

theorem fans_eq_degreeTable (g : CallGraph α) : g.fans = g.degreeTable .call := rfl

namespace WellFormed

variable (h : g.WellFormed)

include h

/-- The nodes that are joined with a node by edges, either way, are as many as these edges. -/
theorem countP_calls (direction : Direction) (place : Nat) (shows : Call → Bool)
    (joined : ∀ v ∈ g.nodes, shows v.call ↔ ∃ edge ∈ g.edges, direction.start edge = place ∧
      direction.finish edge = v.slot ∧ edge.attrs.shows sign) :
    (g.edges.filter (direction.start · = place)).countP (·.attrs.shows sign) =
      g.calls.countP shows := by
  have hedges : g.edges.Nodup := List.Nodup.of_map _ h.ends_nodup
  rw [calls, List.countP_map, List.countP_eq_length_filter, List.countP_eq_length_filter,
    List.filter_filter, ← List.length_map direction.finish, ← List.length_map Node.slot]
  apply List.Perm.length_eq
  refine (List.perm_ext_iff_of_nodup ?_ ?_).2 fun slot => ?_
  · refine (hedges.filter _).map_on fun a ha b hb hfinish => ?_
    simp only [List.mem_filter, Bool.and_eq_true, decide_eq_true_eq] at ha hb
    have hstart := ha.2.2.trans hb.2.2.symm
    cases direction with
    | forward => exact h.eq_of_ends ha.1 hb.1 hstart hfinish
    | backward => exact h.eq_of_ends ha.1 hb.1 hfinish hstart
  · exact h.nodeSlots.nodup.sublist (List.filter_sublist.map Node.slot)
  · simp only [List.mem_map, List.mem_filter, Bool.and_eq_true, decide_eq_true_eq,
      Function.comp_apply]
    constructor
    · rintro ⟨edge, ⟨he, hsign, hstart⟩, rfl⟩
      obtain ⟨v, hv, hfinish⟩ : ∃ v ∈ g.nodes, v.slot = direction.finish edge := by
        cases direction with
        | forward => exact mem_slots.1 (h.edges_live edge he).2
        | backward => exact mem_slots.1 (h.edges_live edge he).1
      exact ⟨v, ⟨hv, (joined v hv).2 ⟨edge, he, hstart, hfinish.symm, hsign⟩⟩, hfinish⟩
    · rintro ⟨v, ⟨hv, hshows⟩, rfl⟩
      obtain ⟨edge, he, hstart, hfinish, hsign⟩ := (joined v hv).1 hshows
      exact ⟨edge, ⟨he, hsign, hstart⟩, hfinish⟩

theorem countP_edgesFrom (hn : node ∈ g.nodes) : (g.edgesFrom node.slot).countP
    (·.attrs.shows sign) = g.calls.countP fun v => g.edgeShows sign node.call v := by
  apply h.countP_calls .forward
  intro v hv
  rw [h.edgeShows_iff, h.slot?_of_mem hn, h.slot?_of_mem hv]
  simp only [Option.some.injEq, Direction.start, Direction.finish, @eq_comm _ node.slot,
    @eq_comm _ v.slot]

theorem countP_edgesTo (hn : node ∈ g.nodes) : (g.edgesTo node.slot).countP
    (·.attrs.shows sign) = g.calls.countP fun v => g.edgeShows sign v node.call := by
  apply h.countP_calls .backward
  intro v hv
  rw [h.edgeShows_iff, h.slot?_of_mem hn, h.slot?_of_mem hv]
  simp only [Option.some.injEq, Direction.start, Direction.finish, @eq_comm _ node.slot,
    @eq_comm _ v.slot, and_left_comm]

theorem counts_degreeTable (sign : EdgeSign) :
    g.Counts sign (g.edges.countP (·.attrs.shows sign)) (g.degreeTable sign) where
  calls := by simp [degreeTable, CallGraph.calls, Function.comp_def]
  sum_incoming := by
    have hsum := sum_countP_key h.nodeSlots.nodup (fun edge he => (h.edges_live edge he).2)
      fun edge => edge.attrs.shows sign
    rw [slots, List.map_map] at hsum
    rw [degreeTable, List.map_map]
    exact hsum
  sum_outgoing := by
    have hsum := sum_countP_key h.nodeSlots.nodup (fun edge he => (h.edges_live edge he).1)
      fun edge => edge.attrs.shows sign
    rw [slots, List.map_map] at hsum
    rw [degreeTable, List.map_map]
    exact hsum
  incoming := by
    intro u degree hentry
    obtain ⟨node, hn, heq⟩ := List.mem_map.1 hentry
    cases heq
    exact h.countP_edgesTo hn
  outgoing := by
    intro u degree hentry
    obtain ⟨node, hn, heq⟩ := List.mem_map.1 hentry
    cases heq
    exact h.countP_edgesFrom hn

theorem degree_eq_ok (hn : node ∈ g.nodes) :
    g.degree node.call = .ok (g.degreeAt (·.attrs.shows .present) node.slot) := by
  rw [degree, require_eq_ok.2 (h.node?_eq_some.2 ⟨hn, rfl⟩)]
  rfl

theorem fan_eq_ok (hn : node ∈ g.nodes) :
    g.fan node.call = .ok (g.degreeAt (·.attrs.shows .call) node.slot) := by
  rw [fan, require_eq_ok.2 (h.node?_eq_some.2 ⟨hn, rfl⟩)]
  rfl

end WellFormed

/-- A node has at most as many edges that show a sign as it has edges. -/
theorem degreeAt_le (g : CallGraph α) (sign : EdgeSign) (slot : Nat) :
    (g.degreeAt (·.attrs.shows sign) slot).incoming ≤
        (g.degreeAt (·.attrs.shows .present) slot).incoming ∧
      (g.degreeAt (·.attrs.shows sign) slot).outgoing ≤
        (g.degreeAt (·.attrs.shows .present) slot).outgoing :=
  ⟨List.countP_mono_left fun _ _ _ => rfl, List.countP_mono_left fun _ _ _ => rfl⟩

/-- Where every call has its return, as many returns leave a node as calls enter it. -/
theorem Paired.countP_returns (h : g.Paired) (hn : node ∈ g.nodes) :
    (g.edgesTo node.slot).countP (·.attrs.shows .call) =
      (g.edgesFrom node.slot).countP (·.attrs.shows .returning) := by
  rw [h.countP_edgesTo hn, h.countP_edgesFrom hn]
  apply List.countP_congr
  intro v _
  exact h.edgeShows_mirror .call

/-- After any operations the degrees have one entry for each node and count each edge once where it
enters and once where it leaves, loops among them; the fans do so with the calls, and are within the
degrees. In a graph of listings the calls that enter a node are as many as the returns that
leave it. -/
theorem Built.degrees_account [Scalar α] (h : Built g) :
    g.identities.Nodup ∧ g.Counts .present g.edges.length g.degrees ∧
    g.Counts .call (g.edges.countP (·.attrs.isCall)) g.fans ∧
    (∀ node ∈ g.nodes, ∃ degree fan, g.degree node.call = .ok degree ∧ g.fan node.call = .ok fan ∧
      (node.call, degree) ∈ g.degrees ∧ (node.call, fan) ∈ g.fans ∧
      fan.incoming ≤ degree.incoming ∧ fan.outgoing ≤ degree.outgoing) ∧
    (Loaded g → ∀ node ∈ g.nodes, ∀ fan, g.fan node.call = .ok fan →
      fan.incoming = (g.edgesFrom node.slot).countP (·.attrs.isReturn)) := by
  have hwf := h.wellFormed
  have htotal : g.edges.countP (·.attrs.shows .present) = g.edges.length :=
    List.countP_eq_length.2 fun _ _ => rfl
  refine ⟨hwf.nodup_identities, ?_, ?_, fun node hn => ?_, fun hloaded node hn fan hfan => ?_⟩
  · rw [degrees_eq_degreeTable, ← htotal]
    exact hwf.counts_degreeTable .present
  · rw [fans_eq_degreeTable]
    exact hwf.counts_degreeTable .call
  · obtain ⟨hincoming, houtgoing⟩ := g.degreeAt_le .call node.slot
    exact ⟨_, _, hwf.degree_eq_ok hn, hwf.fan_eq_ok hn, List.mem_map_of_mem hn,
      List.mem_map_of_mem hn, hincoming, houtgoing⟩
  · rw [hwf.fan_eq_ok hn] at hfan
    cases hfan
    exact hloaded.paired.countP_returns hn

/-- The class whose methods call one another, as one node with a loop. -/
def loopedClass : CallGraph Rat :=
  .ofTrace "<text>" .javacg { granularity := .file } ((Format.javaCalls []).trace selfCallingLines)

theorem load_loopedClass :
    JavaCalls.load [] selfCallingClass [] { granularity := .file } = .ok loopedClass := by
  have hread : (Format.javaCalls []).listing [] selfCallingClass = .ok selfCallingLines := rfl
  exact Format.load_of_listing hread _

theorem degrees_of_loopedClass : Loaded loopedClass ∧ Built loopedClass ∧
    (loopedClass.degrees.map (·.2.incoming)).sum = 3 ∧ ∃ fan,
      loopedClass.fan (.ofFile "app.B" .android) = .ok fan ∧
      (.ofFile "app.B" .android, fan) ∈ loopedClass.fans ∧ fan.incoming = 2 := by
  have hloaded : Loaded loopedClass := .javaCalls load_loopedClass
  obtain ⟨-, hdegrees, -, hentries, hreturns⟩ := hloaded.built.degrees_account
  obtain ⟨node, hn, hcall, hcount⟩ : ∃ node ∈ loopedClass.nodes,
      node.call = .ofFile "app.B" .android ∧
      (loopedClass.edgesFrom node.slot).countP (·.attrs.isReturn) = 2 := by decide +kernel
  obtain ⟨-, fan, -, hfan, -, hentry, -⟩ := hentries node hn
  refine ⟨hloaded, hloaded.built, ?_, fan, hcall ▸ hfan, hcall ▸ hentry, ?_⟩
  · rw [hdegrees.sum_incoming]
    decide +kernel
  · rw [hreturns hloaded node hn fan hfan, hcount]

end CallGraph

end AttackSurface
