import AttackSurface.Graph.Fragments
import AttackSurface.Proofs.Graph.Reach
import AttackSurface.Proofs.Graph.Removal
import AttackSurface.Proofs.Graph.Union
import Mathlib.Algebra.Field.Rat

/-! Fragments. A walk over the whole graph leaves every node once. So every node is in a fragment,
with all the nodes that it reaches and that reach it. -/
namespace AttackSurface

theorem mem_of_partition {β : Type} {p : β → Bool} {xs ys zs : List β} {x : β}
    (h : xs.partition p = (ys, zs)) : (x ∈ ys ↔ x ∈ xs ∧ p x) ∧ (x ∈ zs ↔ x ∈ xs ∧ ¬ p x) := by
  rw [List.partition_eq_filter_filter, Prod.mk.injEq] at h
  rw [← h.1, ← h.2, List.mem_filter, List.mem_filter, Function.comp_apply, Bool.not_eq_true',
    Bool.not_eq_true]
  exact ⟨.rfl, .rfl⟩

theorem perm_of_partition {β : Type} {p : β → Bool} {xs ys zs : List β}
    (h : xs.partition p = (ys, zs)) : (ys ++ zs).Perm xs := by
  rw [List.partition_eq_filter_filter, Prod.mk.injEq] at h
  rw [← h.1, ← h.2]
  exact List.filter_append_perm ..

namespace CallGraph

variable {α : Type} {g : CallGraph α} {next : Nat → List Nat} {depth slot a b c : Nat}
  {live pending slots : List Nat} {walked : Walk}

/-! ## The walk -/

/-- A walk that has left the slots it has met but for those on the way to where it is. -/
structure Walk.Pending (live pending : List Nat) (walked : Walk) : Prop where
  nodup : walked.met.Nodup
  subset : walked.met ⊆ live
  balanced : walked.met.Perm (pending ++ walked.left)

/-- However deep a walk goes on from a slot, it comes back to where it was. -/
theorem Walk.Pending.walk (hnext : ∀ slot, next slot ⊆ live) (h : walked.Pending live pending)
    (hslot : slot ∈ live) : (walk next depth walked slot).Pending live pending := by
  induction depth generalizing walked slot pending with
  | zero => exact h
  | succ depth ih =>
    unfold CallGraph.walk
    split
    · exact h
    · rename_i hnew
      rw [List.contains_iff_mem] at hnew
      have hstart : Walk.Pending live (slot :: pending) { walked with met := slot :: walked.met } :=
        ⟨List.nodup_cons.2 ⟨hnew, h.nodup⟩, List.cons_subset.2 ⟨hslot, h.subset⟩,
          h.balanced.cons slot⟩
      have hbelow := List.foldlRecOn (next slot) (CallGraph.walk next depth) hstart
        fun walked hwalked other hother => ih hwalked (hnext slot hother)
      exact ⟨hbelow.nodup, hbelow.subset, hbelow.balanced.trans List.perm_middle.symm⟩

theorem met_subset_walk (next : Nat → List Nat) (depth slot : Nat) (walked : Walk) :
    walked.met ⊆ (walk next depth walked slot).met := by
  induction depth generalizing walked slot with
  | zero => exact List.Subset.refl _
  | succ depth ih =>
    unfold walk
    split
    · exact List.Subset.refl _
    · refine List.foldlRecOn (motive := fun below : Walk => walked.met ⊆ below.met) (next slot)
        (walk next depth) ?_ fun below hbelow other _ => ?_
      · exact List.subset_cons_self ..
      · exact List.Subset.trans hbelow (ih other below)

theorem mem_met_walk (hdepth : 0 < depth) : slot ∈ (walk next depth walked slot).met := by
  obtain ⟨depth, rfl⟩ := Nat.exists_eq_succ_of_ne_zero (Nat.ne_of_gt hdepth)
  unfold walk
  split
  · rename_i hmet
    exact List.contains_iff_mem.1 hmet
  · refine List.foldlRecOn (motive := fun below : Walk => slot ∈ below.met) (next slot)
      (walk next depth) ?_ fun below hbelow other _ => ?_
    · exact List.mem_cons_self
    · exact met_subset_walk next depth other below hbelow

theorem subset_met_foldl_walk (hdepth : 0 < depth) :
    slots ⊆ (slots.foldl (walk next depth) walked).met ∧
      walked.met ⊆ (slots.foldl (walk next depth) walked).met := by
  induction slots generalizing walked with
  | nil => exact ⟨List.nil_subset _, List.Subset.refl _⟩
  | cons slot rest ih =>
    obtain ⟨hrest, hmet⟩ := @ih (walk next depth walked slot)
    exact ⟨List.cons_subset.2 ⟨hmet (mem_met_walk hdepth), hrest⟩,
      List.Subset.trans (met_subset_walk next depth slot walked) hmet⟩

theorem WellFormed.leavingOrder_perm (h : g.WellFormed) : g.leavingOrder.Perm g.slots := by
  let next (slot : Nat) := (g.edgesFrom slot).map (·.target)
  have hnext (slot : Nat) : next slot ⊆ g.slots := by
    intro other hother
    obtain ⟨edge, he, rfl⟩ := List.mem_map.1 hother
    exact (h.edges_live edge (List.mem_of_mem_filter he)).2
  have horder : g.leavingOrder = (g.slots.foldl (walk next g.nodes.length) {}).left := by
    rw [slots, List.foldl_map]
    rfl
  have hpending : (g.slots.foldl (walk next g.nodes.length) {}).Pending g.slots [] :=
    List.foldlRecOn g.slots (walk next g.nodes.length)
      ⟨List.nodup_nil, List.nil_subset _, .refl _⟩ fun walked hwalked slot hslot =>
        hwalked.walk hnext hslot
  have hmet : g.slots ⊆ (g.slots.foldl (walk next g.nodes.length) {}).met := by
    intro slot hslot
    have hdepth : 0 < g.nodes.length := by
      obtain ⟨node, hn, -⟩ := mem_slots.1 hslot
      exact List.length_pos_of_mem hn
    exact (subset_met_foldl_walk hdepth).1 hslot
  rw [horder]
  refine hpending.balanced.symm.trans ?_
  refine (List.perm_ext_iff_of_nodup hpending.nodup h.nodeSlots.nodup).2 fun slot => ?_
  exact ⟨fun hslot => hpending.subset hslot, fun hslot => hmet hslot⟩

/-! ## Groups -/

/-- Paths lead from each of the two slots to the other. -/
def Mutual (g : CallGraph α) (a b : Nat) : Prop :=
  Relation.ReflTransGen (Leads g.edges .forward) a b ∧
    Relation.ReflTransGen (Leads g.edges .forward) b a

theorem Mutual.refl (a : Nat) : g.Mutual a a := ⟨.refl, .refl⟩

theorem Mutual.symm (h : g.Mutual a b) : g.Mutual b a := ⟨h.2, h.1⟩

theorem Mutual.trans (hab : g.Mutual a b) (hbc : g.Mutual b c) : g.Mutual a c :=
  ⟨hab.1.trans hbc.1, hbc.2.trans hab.2⟩

theorem flatten_groupMutual_perm (g : CallGraph α) (slots : List Nat) :
    (g.groupMutual slots).flatten.Perm slots := by
  fun_induction groupMutual g slots with
  | case1 => exact .refl _
  | case2 slot rest after before same others hsplit ih =>
    have hlast : (others ++ slot :: same).Perm (slot :: (others ++ same)) := List.perm_middle
    have hrest : (others ++ same).Perm rest :=
      List.perm_append_comm.trans (perm_of_partition hsplit)
    rw [List.flatten_append, List.flatten_singleton]
    exact (ih.append_right _).trans (hlast.trans (hrest.cons slot))

theorem mem_reach_both :
    ((g.reach .forward a).contains b && (g.reach .backward a).contains b) ↔ g.Mutual a b := by
  rw [Bool.and_eq_true, List.contains_iff_mem, List.contains_iff_mem, mem_reach, mem_reach,
    reaches_backward, Mutual]

/-- Slots of one group reach each other. -/
theorem mutual_of_group {group : List Nat} (hgroup : group ∈ g.groupMutual slots) (ha : a ∈ group)
    (hb : b ∈ group) : g.Mutual a b := by
  fun_induction groupMutual g slots with
  | case1 => cases hgroup
  | case2 slot rest after before same others hsplit ih =>
    rcases List.mem_append.1 hgroup with hgroup | hgroup
    · exact ih hgroup
    · have hfirst : ∀ other ∈ slot :: same, g.Mutual slot other := by
        intro other hother
        rcases List.mem_cons.1 hother with rfl | hother
        · exact .refl _
        · exact mem_reach_both.1 ((mem_of_partition hsplit).1.1 hother).2
      rw [List.mem_singleton.1 hgroup] at ha hb
      exact (hfirst a ha).symm.trans (hfirst b hb)

/-- Slots that reach each other are in one group. -/
theorem exists_group (ha : a ∈ slots) (hb : b ∈ slots) (hmutual : g.Mutual a b) :
    ∃ group ∈ g.groupMutual slots, a ∈ group ∧ b ∈ group := by
  fun_induction groupMutual g slots with
  | case1 => cases ha
  | case2 slot rest after before same others hsplit ih =>
    have hfirst {other : Nat} (hother : other ∈ slot :: rest) (hso : g.Mutual slot other) :
        other ∈ slot :: same := by
      rcases List.mem_cons.1 hother with rfl | hrest
      · exact List.mem_cons_self
      · exact List.mem_cons_of_mem _ ((mem_of_partition hsplit).1.2 ⟨hrest, mem_reach_both.2 hso⟩)
    have hlater {other : Nat} (hother : other ∈ slot :: rest) (hso : ¬ g.Mutual slot other) :
        other ∈ others := by
      rcases List.mem_cons.1 hother with rfl | hrest
      · exact absurd (.refl _) hso
      · exact (mem_of_partition hsplit).2.2 ⟨hrest, mt mem_reach_both.1 hso⟩
    -- Either both belong to the group of the first slot, or both are left for later ones.
    by_cases hsa : g.Mutual slot a
    · exact ⟨slot :: same, by simp, hfirst ha hsa, hfirst hb (hsa.trans hmutual)⟩
    · have hsb : ¬ g.Mutual slot b := fun hsb => hsa (hsb.trans hmutual.symm)
      obtain ⟨group, hgroup, hmem⟩ := ih (hlater ha hsa) (hlater hb hsb)
      exact ⟨group, List.mem_append_left _ hgroup, hmem⟩

theorem firstLongest_mem {β : Type} {xss : List (List β)} (hne : xss ≠ []) :
    firstLongest xss ∈ xss := by
  induction xss with
  | nil => exact absurd rfl hne
  | cons xs others ih =>
    unfold firstLongest
    dsimp only
    split
    · exact List.mem_cons_self
    · rename_i hlonger
      have hothers : others ≠ [] := by
        rintro rfl
        exact hlonger (Nat.zero_le _)
      exact List.mem_cons_of_mem xs (ih hothers)

/-! ## Fragments -/

namespace WellFormed

variable (h : g.WellFormed)

include h

theorem exists_fragmentSlots_iff (ha : a ∈ g.slots) (hb : b ∈ g.slots) :
    (∃ fragment ∈ g.fragmentSlots, a ∈ fragment ∧ b ∈ fragment) ↔ g.Mutual a b := by
  constructor
  · rintro ⟨fragment, hfragment, ha, hb⟩
    exact mutual_of_group hfragment ha hb
  · exact exists_group (h.leavingOrder_perm.mem_iff.2 ha) (h.leavingOrder_perm.mem_iff.2 hb)

theorem callAt?_eq_call {node : Node α} (hn : node ∈ g.nodes) :
    g.callAt? slot = some node.call ↔ slot = node.slot := by
  rw [h.callAt?_eq_some]
  constructor
  · rintro ⟨other, hother, rfl, hcall⟩
    rw [h.eq_of_identity hother hn (congrArg Call.identity hcall)]
  · rintro rfl
    exact ⟨node, hn, rfl, rfl⟩

/-- Every node is in one fragment, and only once. -/
theorem flatten_fragments_perm : g.fragments.flatten.Perm g.calls := by
  have hslots : g.fragmentSlots.flatten.Perm g.slots :=
    (flatten_groupMutual_perm g g.leavingOrder).trans h.leavingOrder_perm
  have hcalls : g.slots.filterMap g.callAt? = g.calls := by
    rw [slots, List.filterMap_map, calls, ← List.filterMap_eq_map]
    exact List.filterMap_congr fun node hn => (h.callAt?_eq_call hn).2 rfl
  rw [fragments, ← List.filterMap_flatten, ← hcalls]
  exact hslots.filterMap _

/-- Two nodes share a fragment exactly if each reaches the other. -/
theorem exists_fragment_iff {u v : Node α} (hu : u ∈ g.nodes) (hv : v ∈ g.nodes) :
    (∃ fragment ∈ g.fragments, u.call ∈ fragment ∧ v.call ∈ fragment) ↔
      g.Mutual u.slot v.slot := by
  rw [← h.exists_fragmentSlots_iff (mem_slots_of_mem hu) (mem_slots_of_mem hv)]
  simp only [fragments, List.mem_map, exists_exists_and_eq_and, List.mem_filterMap,
    h.callAt?_eq_call hu, h.callAt?_eq_call hv, exists_eq_right]

/-! ## Cutting down -/

theorem fragmentSlots_of_mutual (hne : g.nodes ≠ [])
    (hall : ∀ a ∈ g.slots, ∀ b ∈ g.slots, g.Mutual a b) : g.fragmentSlots = [g.leavingOrder] := by
  have hperm := h.leavingOrder_perm
  unfold fragmentSlots
  cases horder : g.leavingOrder with
  | nil =>
    rw [horder] at hperm
    exact absurd (List.map_eq_nil_iff.1 hperm.nil_eq.symm) hne
  | cons slot rest =>
    have hmutual : ∀ other ∈ rest, g.Mutual slot other := fun other hother =>
      hall slot (hperm.mem_iff.1 (by simp [horder])) other
        (hperm.mem_iff.1 (by simp [horder, hother]))
    have hsplit : rest.partition (fun other => (g.reach .forward slot).contains other &&
        (g.reach .backward slot).contains other) = (rest, []) := by
      rw [List.partition_eq_filter_filter, List.filter_eq_self.2, List.filter_eq_nil_iff.2]
      · intro other hother
        rw [Function.comp_apply, Bool.not_eq_true', Bool.not_eq_false]
        exact mem_reach_both.2 (hmutual other hother)
      · exact fun other hother => mem_reach_both.2 (hmutual other hother)
    unfold groupMutual
    simp only [hsplit]
    rw [groupMutual, List.nil_append]

/-- Where all nodes reach each other, there is a single fragment and nothing to cut off. -/
theorem fragmentize_of_mutual (hne : g.nodes ≠ [])
    (hall : ∀ a ∈ g.slots, ∀ b ∈ g.slots, g.Mutual a b) :
    g.fragmentize = { g with fragmentation := some ⟨1, 1⟩ } := by
  have hperm := h.leavingOrder_perm
  have hnone : (g.nodes.filter fun node => !g.leavingOrder.contains node.slot) = [] := by
    refine List.filter_eq_nil_iff.2 fun node hn => ?_
    simp [hperm.mem_iff.2 (mem_slots_of_mem hn)]
  have hlength : g.leavingOrder.length = g.nodes.length := by
    rw [hperm.length_eq, slots, List.length_map]
  have hpos : (g.nodes.length : Rat) ≠ 0 := by
    simpa using hne
  unfold CallGraph.fragmentize
  rw [h.fragmentSlots_of_mutual hne hall]
  simp only [firstLongest, List.length_nil, Nat.zero_le, if_true, hnone, List.map_nil,
    List.foldl_nil, hlength, div_self hpos]

theorem mutual_of_length_fragmentSlots (hone : g.fragmentSlots.length = 1) (ha : a ∈ g.slots)
    (hb : b ∈ g.slots) : g.Mutual a b := by
  obtain ⟨fragment, hfragment⟩ := List.length_eq_one_iff.1 hone
  have hall : fragment.Perm g.slots := by
    have hflatten := flatten_groupMutual_perm g g.leavingOrder
    rw [← fragmentSlots, hfragment, List.flatten_singleton] at hflatten
    exact hflatten.trans h.leavingOrder_perm
  rw [← h.exists_fragmentSlots_iff ha hb, hfragment]
  exact ⟨fragment, List.mem_singleton_self _, hall.mem_iff.2 ha, hall.mem_iff.2 hb⟩

theorem fragmentSlots_ne_nil (hne : g.nodes ≠ []) : g.fragmentSlots ≠ [] := by
  obtain ⟨node, hn⟩ := List.exists_mem_of_ne_nil _ hne
  have hslot := mem_slots_of_mem hn
  obtain ⟨fragment, hfragment, -⟩ := (h.exists_fragmentSlots_iff hslot hslot).2 (.refl _)
  exact List.ne_nil_of_mem hfragment

/-- A graph with nodes is told how many fragments it had. -/
theorem count_fragmentize (hne : g.nodes ≠ []) :
    g.fragmentize.fragmentation.map (·.count) = some g.fragmentSlots.length := by
  have hsome := h.fragmentSlots_ne_nil hne
  unfold CallGraph.fragmentize
  cases hfragments : g.fragmentSlots with
  | nil => exact absurd hfragments hsome
  | cons fragment others => rfl

/-- The nodes that stay are those of one of the largest fragments. -/
theorem mem_nodes_fragmentize {node : Node α} (hne : g.nodes ≠ []) :
    node ∈ g.fragmentize.nodes ↔
      node ∈ g.nodes ∧ node.slot ∈ firstLongest g.fragmentSlots := by
  have hsome := h.fragmentSlots_ne_nil hne
  unfold CallGraph.fragmentize
  cases hfragments : g.fragmentSlots with
  | nil => exact absurd hfragments hsome
  | cons fragment others =>
    refine (h.mem_nodes_removeNodes _).trans (and_congr_right fun hn => ?_)
    simp only [List.forall_mem_map, List.mem_filter, Bool.not_eq_true', List.contains_eq_mem,
      decide_eq_false_iff_not, and_imp]
    constructor
    · intro hkept
      by_contra hdoomed
      exact hkept node hn hdoomed rfl
    · rintro hkept other hother hdoomed hi
      rw [h.eq_of_identity hn hother hi] at hkept
      exact hdoomed hkept

theorem mutual_of_nodes_fragmentize (hne : g.nodes ≠ [])
    (hsame : g.fragmentize.nodes = g.nodes) (ha : a ∈ g.slots) (hb : b ∈ g.slots) :
    g.Mutual a b := by
  have hkept {slot : Nat} (hslot : slot ∈ g.slots) : slot ∈ firstLongest g.fragmentSlots := by
    obtain ⟨node, hn, rfl⟩ := mem_slots.1 hslot
    rw [← hsame, h.mem_nodes_fragmentize hne] at hn
    exact hn.2
  exact mutual_of_group (firstLongest_mem (h.fragmentSlots_ne_nil hne)) (hkept ha) (hkept hb)

end WellFormed

end CallGraph

end AttackSurface
