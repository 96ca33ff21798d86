import AttackSurface.Proofs.Graph.Descendants
import AttackSurface.Proofs.Graph.Fragments
import AttackSurface.Proofs.Surface
import Mathlib.Data.List.Pairwise

/-! Cutting a graph down to a fragment. What is left are the nodes of one largest fragment and the
edges between them. No path between two of these nodes ever left the fragment, so the graph that is
left hangs together and cutting it down again takes nothing away. -/
namespace AttackSurface.CallGraph

variable {α : Type} {g : CallGraph α} {node : Node α} {edge : Edge} {call u v : Call}
  {a b c : Nat} {kept : List Nat}

theorem length_le_firstLongest {β : Type} {xs : List β} {xss : List (List β)} (h : xs ∈ xss) :
    xs.length ≤ (firstLongest xss).length := by
  induction xss with
  | nil => cases h
  | cons first others ih =>
    unfold firstLongest
    dsimp only
    split
    case isTrue hle =>
      rcases List.mem_cons.1 h with rfl | h
      · exact Nat.le_refl _
      · exact Nat.le_trans (ih h) hle
    case isFalse hlt =>
      rcases List.mem_cons.1 h with rfl | h
      · omega
      · exact ih h

/-- Of the nodes and edges of `g` those of the calls in `kept` are left, as they were. -/
structure LeavesOnly (kept : List Call) (g part : CallGraph α) : Prop where
  calls_perm : part.calls.Perm kept
  mem_nodes : ∀ node, node ∈ part.nodes ↔ node ∈ g.nodes ∧ node.call ∈ kept
  mem_edges : ∀ edge, edge ∈ part.edges ↔ edge ∈ g.edges ∧
    (∃ u ∈ kept, g.callAt? edge.source = some u) ∧ ∃ v ∈ kept, g.callAt? edge.target = some v
  attrs? : ∀ u ∈ kept, part.attrs? u = g.attrs? u
  edgeAttrs? : ∀ u ∈ kept, ∀ v ∈ kept, part.edgeAttrs? u v = g.edgeAttrs? u v

namespace WellFormed

variable (h : g.WellFormed)

include h

/-! ## Edges between the nodes that stay -/

theorem mem_edges_removeNode_iff : edge ∈ (g.removeNode call).edges ↔ edge ∈ g.edges ∧
    edge.source ∈ (g.removeNode call).slots ∧ edge.target ∈ (g.removeNode call).slots := by
  cases hs : g.slot? call with
  | none =>
    rw [removeNode_of_none hs]
    exact (and_iff_left_of_imp (h.edges_live edge)).symm
  | some slot =>
    rw [mem_edges_removeNode hs, slots_removeNode hs]
    simp only [List.mem_filter, decide_eq_true_eq]
    refine and_congr_right fun he => ?_
    rw [and_iff_right (h.edges_live edge he).1, and_iff_right (h.edges_live edge he).2]

theorem mem_edges_removeNodes (calls : List Call) :
    edge ∈ (calls.foldl CallGraph.removeNode g).edges ↔ edge ∈ g.edges ∧
      edge.source ∈ (calls.foldl CallGraph.removeNode g).slots ∧
        edge.target ∈ (calls.foldl CallGraph.removeNode g).slots := by
  induction calls generalizing g with
  | nil => exact (and_iff_left_of_imp (h.edges_live edge)).symm
  | cons call rest ih =>
    have hlive {slot : Nat} (hslot : slot ∈ (rest.foldl CallGraph.removeNode
        (g.removeNode call)).slots) : slot ∈ (g.removeNode call).slots := by
      obtain ⟨node, hn, rfl⟩ := mem_slots.1 hslot
      exact mem_slots_of_mem (((h.removeNode call).mem_nodes_removeNodes rest).1 hn).1
    rw [List.foldl_cons, ih (h.removeNode call), h.mem_edges_removeNode_iff, and_assoc]
    refine and_congr_right fun _ => and_iff_right_of_imp ?_
    exact And.imp hlive hlive

/-! ## The fragment that stays -/

theorem fragmentize_of_fragments (hne : g.nodes ≠ []) : ∃ doomed : List Call,
    g.fragmentize = { doomed.foldl CallGraph.removeNode g with
      fragmentation := some ⟨g.fragmentSlots.length,
        ((firstLongest g.fragmentSlots).length : Rat) / (g.nodes.length : Rat)⟩ } := by
  have hsome := h.fragmentSlots_ne_nil hne
  unfold CallGraph.fragmentize
  cases hfragments : g.fragmentSlots with
  | nil => exact absurd hfragments hsome
  | cons fragment others => exact ⟨_, rfl⟩

theorem mem_edges_fragmentize (hne : g.nodes ≠ []) : edge ∈ g.fragmentize.edges ↔
    edge ∈ g.edges ∧ edge.source ∈ g.fragmentize.slots ∧ edge.target ∈ g.fragmentize.slots := by
  obtain ⟨doomed, hcut⟩ := h.fragmentize_of_fragments hne
  rw [hcut]
  exact h.mem_edges_removeNodes doomed

theorem firstLongest_subset (hne : g.nodes ≠ []) : firstLongest g.fragmentSlots ⊆ g.slots := by
  intro slot hslot
  have hall : slot ∈ g.fragmentSlots.flatten :=
    List.mem_flatten_of_mem (firstLongest_mem (h.fragmentSlots_ne_nil hne)) hslot
  exact h.leavingOrder_perm.mem_iff.1 ((flatten_groupMutual_perm g _).mem_iff.1 hall)

theorem mem_slots_fragmentize (hne : g.nodes ≠ []) :
    a ∈ g.fragmentize.slots ↔ a ∈ firstLongest g.fragmentSlots := by
  simp only [mem_slots, h.mem_nodes_fragmentize hne]
  constructor
  · rintro ⟨node, ⟨-, hkept⟩, rfl⟩
    exact hkept
  · intro hkept
    obtain ⟨node, hn, rfl⟩ := mem_slots.1 (h.firstLongest_subset hne hkept)
    exact ⟨node, ⟨hn, hkept⟩, rfl⟩

theorem nodup_flatten_fragmentSlots : g.fragmentSlots.flatten.Nodup := by
  have hperm := (flatten_groupMutual_perm g g.leavingOrder).trans h.leavingOrder_perm
  exact hperm.nodup_iff.2 h.nodeSlots.nodup

/-- With one slot a fragment has all that reach it and are reached from it. -/
theorem mem_of_mutual {fragment : List Nat} (hfragment : fragment ∈ g.fragmentSlots)
    (ha : a ∈ fragment) (hb : b ∈ g.slots) (hmutual : g.Mutual a b) : b ∈ fragment := by
  have hslot : a ∈ g.slots := by
    have hall := List.mem_flatten_of_mem hfragment ha
    exact h.leavingOrder_perm.mem_iff.1 ((flatten_groupMutual_perm g _).mem_iff.1 hall)
  obtain ⟨other, hother, ha', hb'⟩ := (h.exists_fragmentSlots_iff hslot hb).2 hmutual
  have hdisjoint := (List.nodup_flatten.1 h.nodup_flatten_fragmentSlots).2
  have hsymm : Std.Symm (List.Disjoint (α := Nat)) := ⟨fun _ _ => List.disjoint_symm⟩
  by_contra hnot
  have hne : fragment ≠ other := by
    rintro rfl
    exact hnot hb'
  exact hdisjoint.forall hfragment hother hne ha ha'

theorem leads_fragmentize (hne : g.nodes ≠ []) (ha : a ∈ firstLongest g.fragmentSlots)
    (hb : b ∈ g.slots) (hc : c ∈ g.slots) (hab : g.Mutual a b) (hac : g.Mutual a c)
    (hlead : Leads g.edges .forward b c) : Leads g.fragmentize.edges .forward b c := by
  have hkept := firstLongest_mem (h.fragmentSlots_ne_nil hne)
  obtain ⟨edge, he, rfl, rfl⟩ := hlead
  refine ⟨edge, (h.mem_edges_fragmentize hne).2 ⟨he, ?_, ?_⟩, rfl, rfl⟩
  · exact (h.mem_slots_fragmentize hne).2 (h.mem_of_mutual hkept ha hb hab)
  · exact (h.mem_slots_fragmentize hne).2 (h.mem_of_mutual hkept ha hc hac)

theorem reaches_fragmentize (hne : g.nodes ≠ []) (ha : a ∈ firstLongest g.fragmentSlots)
    (hmutual : g.Mutual a b) : Relation.ReflTransGen (Leads g.fragmentize.edges .forward) a b := by
  -- Whatever lies on the way from `a` to `b` has a way back to `a`, so it belongs to the fragment.
  have hwithin {c : Nat} (hac : Relation.ReflTransGen (Leads g.edges .forward) a c) :
      Relation.ReflTransGen (Leads g.edges .forward) c b →
        Relation.ReflTransGen (Leads g.fragmentize.edges .forward) a c := by
    induction hac with
    | refl => exact fun _ => .refl
    | tail hay hlead ih =>
      intro hcb
      have hyb := hcb.head hlead
      obtain ⟨edge, he, rfl, rfl⟩ := id hlead
      obtain ⟨hsource, htarget⟩ := h.edges_live edge he
      refine (ih hyb).tail (h.leads_fragmentize hne ha hsource htarget ?_ ?_ hlead)
      · exact ⟨hay, hyb.trans hmutual.2⟩
      · exact ⟨hay.tail hlead, hcb.trans hmutual.2⟩
  exact hwithin hmutual.1 .refl

/-- What is left of a graph hangs together. -/
theorem mutual_fragmentize (hne : g.nodes ≠ []) (ha : a ∈ g.fragmentize.slots)
    (hb : b ∈ g.fragmentize.slots) : g.fragmentize.Mutual a b := by
  rw [h.mem_slots_fragmentize hne] at ha hb
  have hmutual := mutual_of_group (firstLongest_mem (h.fragmentSlots_ne_nil hne)) ha hb
  exact ⟨h.reaches_fragmentize hne ha hmutual, h.reaches_fragmentize hne hb hmutual.symm⟩

/-! ## The calls that stay -/

theorem calls_fragmentize_perm (hne : g.nodes ≠ []) :
    g.fragmentize.calls.Perm ((firstLongest g.fragmentSlots).filterMap g.callAt?) := by
  have hkept := firstLongest_mem (h.fragmentSlots_ne_nil hne)
  have hnodup := (List.nodup_flatten.1 h.nodup_flatten_fragmentSlots).1 _ hkept
  refine (List.perm_ext_iff_of_nodup ?_ ?_).2 fun call => ?_
  · exact List.Nodup.of_map _ h.fragmentize.nodup_identities
  · exact List.Nodup.of_map _ (h.nodup_filterMap_callAt? hnodup)
  · simp only [calls, List.mem_map, h.mem_nodes_fragmentize hne, List.mem_filterMap,
      h.callAt?_eq_some]
    constructor
    · rintro ⟨node, ⟨hn, hslot⟩, rfl⟩
      exact ⟨node.slot, hslot, node, hn, rfl, rfl⟩
    · rintro ⟨_, hslot, node, hn, rfl, rfl⟩
      exact ⟨node, ⟨hn, hslot⟩, rfl⟩

theorem mem_nodes_of_mem_fragmentize (hn : node ∈ g.fragmentize.nodes) (hne : g.nodes ≠ []) :
    node ∈ g.nodes :=
  ((h.mem_nodes_fragmentize hne).1 hn).1

theorem exists_kept_iff (hne : g.nodes ≠ []) (ha : a ∈ g.slots) :
    (∃ u ∈ (firstLongest g.fragmentSlots).filterMap g.callAt?, g.callAt? a = some u) ↔
      a ∈ g.fragmentize.slots := by
  obtain ⟨node, hn, rfl⟩ := mem_slots.1 ha
  rw [h.mem_slots_fragmentize hne, (h.callAt?_eq_call hn).2 rfl]
  simp only [Option.some.injEq, exists_eq_right', List.mem_filterMap, h.callAt?_eq_call hn,
    exists_eq_right]

theorem edgeAttrs?_fragmentize {u v : Node α} (hne : g.nodes ≠ []) (hu : u ∈ g.fragmentize.nodes)
    (hv : v ∈ g.fragmentize.nodes) :
    g.fragmentize.edgeAttrs? u.call v.call = g.edgeAttrs? u.call v.call := by
  have hu' := h.mem_nodes_of_mem_fragmentize hu hne
  have hv' := h.mem_nodes_of_mem_fragmentize hv hne
  ext attrs
  rw [h.fragmentize.edgeAttrs?_eq_some, h.edgeAttrs?_eq_some, h.fragmentize.slot?_of_mem hu,
    h.fragmentize.slot?_of_mem hv, h.slot?_of_mem hu', h.slot?_of_mem hv']
  refine exists_congr fun edge => ?_
  rw [h.mem_edges_fragmentize hne, and_assoc]
  refine and_congr_right fun _ => and_iff_right_of_imp ?_
  rintro ⟨hsource, htarget, -⟩
  rw [← Option.some.inj hsource, ← Option.some.inj htarget]
  exact ⟨mem_slots_of_mem hu, mem_slots_of_mem hv⟩

theorem leavesOnly_fragmentize (hne : g.nodes ≠ []) :
    LeavesOnly ((firstLongest g.fragmentSlots).filterMap g.callAt?) g g.fragmentize := by
  have hperm := h.calls_fragmentize_perm hne
  have hnode {u : Call} (hu : u ∈ (firstLongest g.fragmentSlots).filterMap g.callAt?) :
      ∃ node ∈ g.fragmentize.nodes, node.call = u := List.mem_map.1 (hperm.mem_iff.2 hu)
  refine ⟨hperm, fun node => ?_, fun edge => ?_, fun u hu => ?_, fun u hu v hv => ?_⟩
  · rw [h.mem_nodes_fragmentize hne]
    refine and_congr_right fun hn => ?_
    simp only [List.mem_filterMap, h.callAt?_eq_call hn, exists_eq_right]
  · rw [h.mem_edges_fragmentize hne]
    refine and_congr_right fun he => ?_
    obtain ⟨hsource, htarget⟩ := h.edges_live edge he
    rw [h.exists_kept_iff hne hsource, h.exists_kept_iff hne htarget]
  · obtain ⟨node, hn, rfl⟩ := hnode hu
    rw [h.fragmentize.attrs?_of_mem hn, h.attrs?_of_mem (h.mem_nodes_of_mem_fragmentize hn hne)]
  · obtain ⟨a, ha, rfl⟩ := hnode hu
    obtain ⟨b, hb, rfl⟩ := hnode hv
    exact h.edgeAttrs?_fragmentize hne ha hb

theorem length_filterMap_callAt? {slots : List Nat} (hslots : slots ⊆ g.slots) :
    (slots.filterMap g.callAt?).length = slots.length := by
  rw [List.length_filterMap_eq_countP, List.countP_eq_length]
  intro slot hslot
  obtain ⟨node, hn, rfl⟩ := mem_slots.1 (hslots hslot)
  rw [(h.callAt?_eq_call hn).2 rfl, Option.isSome_some]

theorem length_firstLongest_pos (hne : g.nodes ≠ []) :
    0 < (firstLongest g.fragmentSlots).length := by
  obtain ⟨node, hn⟩ := List.exists_mem_of_ne_nil _ hne
  have hslot := mem_slots_of_mem hn
  obtain ⟨fragment, hfragment, hmem, -⟩ := (h.exists_fragmentSlots_iff hslot hslot).2 (.refl _)
  exact (List.length_pos_of_mem hmem).trans_le (length_le_firstLongest hfragment)

theorem length_firstLongest_le (hne : g.nodes ≠ []) :
    (firstLongest g.fragmentSlots).length ≤ g.nodes.length := by
  have hkept := firstLongest_mem (h.fragmentSlots_ne_nil hne)
  have hnodup := (List.nodup_flatten.1 h.nodup_flatten_fragmentSlots).1 _ hkept
  have hslots : g.slots.length = g.nodes.length := List.length_map ..
  rw [← hslots]
  exact (hnodup.subperm (h.firstLongest_subset hne)).length_le

theorem fragmentation_fragmentize (hne : g.nodes ≠ []) : ∃ share,
    g.fragmentize.fragmentation = some ⟨g.fragments.length, share⟩ ∧
    share = ((firstLongest g.fragmentSlots).length : Rat) / (g.nodes.length : Rat) ∧
    0 < share ∧ share ≤ 1 := by
  obtain ⟨doomed, hcut⟩ := h.fragmentize_of_fragments hne
  have hkept : (0 : Rat) < (firstLongest g.fragmentSlots).length :=
    Nat.cast_pos.2 (h.length_firstLongest_pos hne)
  have hall : ((firstLongest g.fragmentSlots).length : Rat) ≤ g.nodes.length :=
    Nat.cast_le.2 (h.length_firstLongest_le hne)
  refine ⟨_, ?_, rfl, div_pos hkept (hkept.trans_le hall), (div_le_one (hkept.trans_le hall)).2 hall⟩
  rw [hcut, fragments, List.length_map]

/-! ## Before and after -/

theorem exists_fragment_iff_descendants {u v : Node α} (hu : u ∈ g.nodes) (hv : v ∈ g.nodes) :
    (∃ fragment ∈ g.fragments, u.call ∈ fragment ∧ v.call ∈ fragment) ↔
      u.call = v.call ∨ g.HasDescendant u.call v.call ∧ g.HasDescendant v.call u.call := by
  rw [h.exists_fragment_iff hu hv, h.hasDescendant_iff_reaches hu hv,
    h.hasDescendant_iff_reaches hv hu]
  by_cases heq : u = v
  · subst heq
    exact iff_of_true (.refl _) (.inl rfl)
  · have hcalls : u.call ≠ v.call := fun hcalls =>
      heq (h.eq_of_identity hu hv (congrArg Call.identity hcalls))
    simp only [Mutual, hcalls, heq, Ne.symm heq, ne_eq, not_false_eq_true, true_and, false_or]

theorem hasDescendant_fragmentize (hne : g.nodes ≠ []) (hu : u ∈ g.fragmentize.calls)
    (hv : v ∈ g.fragmentize.calls) : u = v ∨ g.fragmentize.HasDescendant u v := by
  obtain ⟨a, ha, rfl⟩ := List.mem_map.1 hu
  obtain ⟨b, hb, rfl⟩ := List.mem_map.1 hv
  rw [h.fragmentize.hasDescendant_iff_reaches ha hb]
  by_cases heq : b = a
  · exact .inl (by rw [heq])
  · exact .inr ⟨heq, (h.mutual_fragmentize hne (mem_slots_of_mem ha) (mem_slots_of_mem hb)).1⟩

theorem fragmentize_fragmentize (hne : g.nodes ≠ []) :
    g.fragmentize.fragmentize = { g.fragmentize with fragmentation := some ⟨1, 1⟩ } := by
  refine h.fragmentize.fragmentize_of_mutual ?_ fun a ha b hb => h.mutual_fragmentize hne ha hb
  intro hnone
  obtain ⟨slot, hslot⟩ := List.exists_mem_of_length_pos (h.length_firstLongest_pos hne)
  rw [← h.mem_slots_fragmentize hne, slots, hnone] at hslot
  cases hslot

theorem fragmentize_of_nil (hnil : g.nodes = []) : g.fragmentize = g := by
  have hslots : g.leavingOrder = [] := by
    have hperm := h.leavingOrder_perm
    rw [slots, hnil] at hperm
    exact hperm.eq_nil
  have hnone : g.fragmentSlots = [] := by rw [fragmentSlots, hslots, groupMutual]
  rw [CallGraph.fragmentize, hnone]

/-- The fragments of a graph have each of its calls once, and two calls are in one of them exactly
if they are the same or descendants of each other. Cutting a graph down leaves one of the largest
fragments, with its nodes and the edges between them as they were and nothing else, and tells how
many fragments there were and the share of the nodes that is left. As that hangs together, cutting
it down again changes no node and no edge. A graph without nodes stays as it is. -/
theorem fragmentize_leaves_largest :
    g.fragments.flatten.Perm g.calls ∧
    (∀ u ∈ g.calls, ∀ v ∈ g.calls,
      (∃ fragment ∈ g.fragments, u ∈ fragment ∧ v ∈ fragment) ↔
        u = v ∨ g.HasDescendant u v ∧ g.HasDescendant v u) ∧
    (g.nodes = [] → g.fragmentize = g) ∧
    (g.nodes ≠ [] → ∃ kept ∈ g.fragments,
      (∀ fragment ∈ g.fragments, fragment.length ≤ kept.length) ∧
      LeavesOnly kept g g.fragmentize ∧
      (∃ share, g.fragmentize.fragmentation = some ⟨g.fragments.length, share⟩ ∧
        share = (kept.length : Rat) / (g.nodes.length : Rat) ∧ 0 < share ∧ share ≤ 1) ∧
      (∀ u ∈ g.fragmentize.calls, ∀ v ∈ g.fragmentize.calls,
        u = v ∨ g.fragmentize.HasDescendant u v) ∧
      g.fragmentize.fragmentize = { g.fragmentize with fragmentation := some ⟨1, 1⟩ }) := by
  refine ⟨h.flatten_fragments_perm, fun u hu v hv => ?_, h.fragmentize_of_nil, fun hne => ?_⟩
  · obtain ⟨a, ha, rfl⟩ := List.mem_map.1 hu
    obtain ⟨b, hb, rfl⟩ := List.mem_map.1 hv
    exact h.exists_fragment_iff_descendants ha hb
  · have hmem := List.mem_map_of_mem (f := (·.filterMap g.callAt?))
      (firstLongest_mem (h.fragmentSlots_ne_nil hne))
    have hlength := h.length_filterMap_callAt? (h.firstLongest_subset hne)
    refine ⟨_, hmem, fun fragment hfragment => ?_, h.leavesOnly_fragmentize hne, ?_,
      fun u hu v hv => h.hasDescendant_fragmentize hne hu hv, h.fragmentize_fragmentize hne⟩
    · obtain ⟨slots, hslots, rfl⟩ := List.mem_map.1 hfragment
      rw [hlength]
      exact (List.length_filterMap_le ..).trans (length_le_firstLongest hslots)
    · rw [hlength]
      exact h.fragmentation_fragmentize hne

end WellFormed

theorem fragment_of_oneWay : oneWay.WellFormed ∧ oneWay.nodes ≠ [] ∧
    oneWay.fragmentize.calls = [{ name := "f" }, { name := "g" }] ∧
    oneWay.fragmentize.HasDescendant { name := "g" } { name := "f" } ∧
    oneWay.fragmentize.edgeAttrs? { name := "g" } { name := "f" } = some (.call .cflow) ∧
    oneWay.fragmentize.fragmentation = some ⟨3, 1 / 2⟩ ∧
    oneWay.fragmentize.fragmentize.fragmentation = some ⟨1, 1⟩ := by
  have h := built_oneWay.wellFormed
  have hne : oneWay.nodes ≠ [] := List.ne_nil_of_length_pos (by decide +kernel)
  have hcalls : oneWay.fragmentize.calls = [{ name := "f" }, { name := "g" }] := by decide +kernel
  obtain ⟨kept, -, -, hleaves, -, hconnected, hagain⟩ :=
    h.fragmentize_leaves_largest.2.2.2 hne
  have hkept (u : Call) (hu : u ∈ oneWay.fragmentize.calls) : u ∈ kept :=
    hleaves.calls_perm.mem_iff.1 hu
  refine ⟨h, hne, hcalls, ?_, ?_, by decide +kernel, by rw [hagain]⟩
  · have heither := hconnected { name := "g" } (by simp [hcalls]) { name := "f" } (by simp [hcalls])
    exact heither.resolve_left (by decide)
  · rw [hleaves.edgeAttrs? _ (hkept _ (by simp [hcalls])) _ (hkept _ (by simp [hcalls]))]
    decide +kernel

end AttackSurface.CallGraph
