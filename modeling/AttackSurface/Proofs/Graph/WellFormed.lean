import AttackSurface.Graph.Basic
import Mathlib.Data.List.Nodup

/-! Well-formed call graphs. The nodes, the index that finds them, the edges between them and the
slots given out agree. In such a graph every look-up is a statement about members. -/
namespace AttackSurface

/-- Where at most one element satisfies `p`, a search finds exactly that one. -/
theorem find?_eq_some_of_unique {β : Type} {p : β → Bool} {xs : List β} {x : β}
    (unique : ∀ a ∈ xs, ∀ b ∈ xs, p a → p b → a = b) :
    xs.find? p = some x ↔ x ∈ xs ∧ p x := by
  constructor
  · intro h
    exact ⟨List.mem_of_find?_eq_some h, List.find?_some h⟩
  · rintro ⟨hx, hp⟩
    cases h : xs.find? p with
    | none => exact absurd hp (List.find?_eq_none.1 h x hx)
    | some y => rw [unique y (List.mem_of_find?_eq_some h) x hx (List.find?_some h) hp]

namespace SlotPool

variable {pool : SlotPool} {slot : Nat} {live other slots : List Nat}

/-- The slots below the bound are those in use and those that came back, each of them once. -/
def Serves (pool : SlotPool) (live : List Nat) : Prop :=
  (pool.free ++ live).Perm (List.range pool.bound)

theorem serves_empty : ({} : SlotPool).Serves [] := List.Perm.refl _

theorem Serves.perm (h : pool.Serves live) (same : live.Perm other) : pool.Serves other :=
  (same.symm.append_left pool.free).trans h

theorem Serves.nodup (h : pool.Serves live) : live.Nodup := by
  have hall : (pool.free ++ live).Nodup := h.nodup_iff.2 List.nodup_range
  exact hall.of_append_right

theorem Serves.take (h : pool.Serves live) : pool.take.Serves (pool.next :: live) := by
  obtain ⟨bound, free⟩ := pool
  unfold Serves at *
  cases free with
  | nil =>
    simp only [SlotPool.take, next, List.headD_nil, List.nil_append, List.range_succ] at *
    exact (h.cons bound).trans (List.perm_append_singleton bound _).symm
  | cons slot rest => exact List.perm_middle.trans h

theorem Serves.next_notMem (h : pool.Serves live) : pool.next ∉ live :=
  (List.nodup_cons.1 h.take.nodup).1

theorem Serves.giveBack (h : pool.Serves (slot :: live)) : (pool.giveBack slot).Serves live :=
  List.perm_middle.symm.trans h

theorem Serves.giveBackAll (h : pool.Serves (slots ++ live)) :
    (slots.foldl SlotPool.giveBack pool).Serves live := by
  induction slots generalizing pool with
  | nil => exact h
  | cons slot rest ih => exact ih h.giveBack

end SlotPool

def Edge.ends (edge : Edge) : Nat × Nat := (edge.source, edge.target)

namespace CallGraph

variable {α : Type} {g : CallGraph α} {node : Node α} {edge : Edge} {call other : Call}
  {slot source target : Nat}

/-- The slots that hold a node. -/
def slots (g : CallGraph α) : List Nat := g.nodes.map (·.slot)

def identities (g : CallGraph α) : List String := g.calls.map (·.identity)

/-- What every change of a graph preserves. -/
structure WellFormed (g : CallGraph α) : Prop where
  ascending : g.slots.Pairwise (· < ·)
  /-- The index leads from the identity of every node to its slot, and nowhere else. -/
  index_iff : ∀ identity slot, g.index.get? identity = some slot ↔
    ∃ node ∈ g.nodes, node.call.identity = identity ∧ node.slot = slot
  ends_nodup : (g.edges.map Edge.ends).Nodup
  edges_live : ∀ edge ∈ g.edges, edge.source ∈ g.slots ∧ edge.target ∈ g.slots
  nodeSlots : g.nodeSlots.Serves g.slots
  edgeSlots : g.edgeSlots.Serves (g.edges.map (·.slot))

theorem wellFormed_empty (source : String) : (empty source : CallGraph α).WellFormed where
  ascending := .nil
  index_iff := by simp [empty]
  ends_nodup := .nil
  edges_live := by simp [empty]
  nodeSlots := SlotPool.serves_empty
  edgeSlots := SlotPool.serves_empty

/-- What else is known of a graph does not matter. -/
theorem WellFormed.withOrigin (h : g.WellFormed) (source : String) (errors : List LineError)
    (fragmentation : Option Fragmentation) :
    { g with source, errors, fragmentation }.WellFormed :=
  ⟨h.ascending, h.index_iff, h.ends_nodup, h.edges_live, h.nodeSlots, h.edgeSlots⟩

theorem mem_slots : slot ∈ g.slots ↔ ∃ node ∈ g.nodes, node.slot = slot := List.mem_map

theorem mem_slots_of_mem (h : node ∈ g.nodes) : node.slot ∈ g.slots := mem_slots.2 ⟨node, h, rfl⟩

theorem mem_identities {identity : String} :
    identity ∈ g.identities ↔ ∃ node ∈ g.nodes, node.call.identity = identity := by
  simp [identities, calls]

/-! ## Look-ups of calls with one identity -/

theorem slot?_congr (h : call.identity = other.identity) : g.slot? call = g.slot? other := by
  rw [slot?, slot?, h]

theorem attrs?_congr (h : call.identity = other.identity) : g.attrs? call = g.attrs? other := by
  rw [attrs?, attrs?, node?, node?, slot?_congr h]

theorem require_eq_ok : g.require call = .ok node ↔ g.node? call = some node := by
  unfold require
  cases g.node? call <;> simp

/-! ## Look-ups as statements about members -/

namespace WellFormed

variable (h : g.WellFormed)

include h

theorem eq_of_slot {a b : Node α} (ha : a ∈ g.nodes) (hb : b ∈ g.nodes) (hs : a.slot = b.slot) :
    a = b :=
  List.inj_on_of_nodup_map h.nodeSlots.nodup ha hb hs

theorem slot?_eq_some :
    g.slot? call = some slot ↔
      ∃ node ∈ g.nodes, node.call.identity = call.identity ∧ node.slot = slot :=
  h.index_iff _ _

theorem eq_of_identity {a b : Node α} (ha : a ∈ g.nodes) (hb : b ∈ g.nodes)
    (hi : a.call.identity = b.call.identity) : a = b := by
  have hslot := h.slot?_eq_some.2 ⟨a, ha, hi, rfl⟩
  rw [h.slot?_eq_some.2 ⟨b, hb, rfl, rfl⟩] at hslot
  exact h.eq_of_slot ha hb (Option.some.inj hslot).symm

theorem slot?_of_mem (hn : node ∈ g.nodes) : g.slot? node.call = some node.slot :=
  h.slot?_eq_some.2 ⟨node, hn, rfl, rfl⟩

theorem mem_slots_of_slot? (hs : g.slot? call = some slot) : slot ∈ g.slots := by
  obtain ⟨node, hn, -, rfl⟩ := h.slot?_eq_some.1 hs
  exact mem_slots_of_mem hn

theorem identity_eq_of_slot? (hc : g.slot? call = some slot) (ho : g.slot? other = some slot) :
    call.identity = other.identity := by
  obtain ⟨a, ha, hca, hsa⟩ := h.slot?_eq_some.1 hc
  obtain ⟨b, hb, hcb, hsb⟩ := h.slot?_eq_some.1 ho
  rw [← hca, ← hcb, h.eq_of_slot ha hb (hsa.trans hsb.symm)]

theorem nodeAt?_eq_some : g.nodeAt? slot = some node ↔ node ∈ g.nodes ∧ node.slot = slot := by
  rw [nodeAt?, find?_eq_some_of_unique]
  · simp
  · intro a ha b hb hsa hsb
    simp only [decide_eq_true_eq] at hsa hsb
    exact h.eq_of_slot ha hb (hsa.trans hsb.symm)

theorem node?_eq_some :
    g.node? call = some node ↔ node ∈ g.nodes ∧ node.call.identity = call.identity := by
  rw [node?, Option.bind_eq_some_iff]
  constructor
  · rintro ⟨slot, hs, hat⟩
    obtain ⟨hn, rfl⟩ := h.nodeAt?_eq_some.1 hat
    exact ⟨hn, h.identity_eq_of_slot? (h.slot?_of_mem hn) hs⟩
  · rintro ⟨hn, hi⟩
    exact ⟨node.slot, h.slot?_eq_some.2 ⟨node, hn, hi, rfl⟩, h.nodeAt?_eq_some.2 ⟨hn, rfl⟩⟩

theorem node?_of_slot? (hs : g.slot? call = some slot) :
    ∃ node ∈ g.nodes, node.slot = slot ∧ g.node? call = some node := by
  obtain ⟨node, hn, hi, rfl⟩ := h.slot?_eq_some.1 hs
  exact ⟨node, hn, rfl, h.node?_eq_some.2 ⟨hn, hi⟩⟩

theorem attrs?_of_mem (hn : node ∈ g.nodes) : g.attrs? node.call = some node.attrs := by
  rw [attrs?, h.node?_eq_some.2 ⟨hn, rfl⟩, Option.map_some]

theorem attrs?_eq_some {attrs : NodeAttrs α} :
    g.attrs? call = some attrs ↔
      ∃ node ∈ g.nodes, node.call.identity = call.identity ∧ node.attrs = attrs := by
  simp only [attrs?, Option.map_eq_some_iff, h.node?_eq_some, and_assoc]

theorem isSome_attrs? : (g.attrs? call).isSome ↔ call.identity ∈ g.identities := by
  rw [attrs?, Option.isSome_map, Option.isSome_iff_exists, mem_identities]
  exact exists_congr fun node => h.node?_eq_some

theorem isSome_slot? : (g.slot? call).isSome ↔ call.identity ∈ g.identities := by
  rw [Option.isSome_iff_exists, mem_identities]
  constructor
  · rintro ⟨slot, hs⟩
    obtain ⟨node, hn, hi, -⟩ := h.slot?_eq_some.1 hs
    exact ⟨node, hn, hi⟩
  · rintro ⟨node, hn, hi⟩
    exact ⟨node.slot, h.slot?_eq_some.2 ⟨node, hn, hi, rfl⟩⟩

theorem eq_of_ends {a b : Edge} (ha : a ∈ g.edges) (hb : b ∈ g.edges) (hs : a.source = b.source)
    (ht : a.target = b.target) : a = b :=
  List.inj_on_of_nodup_map h.ends_nodup ha hb (Prod.ext hs ht)

theorem eq_of_edgeSlot {a b : Edge} (ha : a ∈ g.edges) (hb : b ∈ g.edges) (hs : a.slot = b.slot) :
    a = b :=
  List.inj_on_of_nodup_map h.edgeSlots.nodup ha hb hs

theorem edgeBetween?_eq_some :
    g.edgeBetween? source target = some edge ↔
      edge ∈ g.edges ∧ edge.source = source ∧ edge.target = target := by
  rw [edgeBetween?, find?_eq_some_of_unique]
  · simp
  · intro a ha b hb hea heb
    simp only [decide_eq_true_eq] at hea heb
    exact h.eq_of_ends ha hb (hea.1.trans heb.1.symm) (hea.2.trans heb.2.symm)

theorem edgeAttrs?_eq_some {attrs : EdgeAttrs} :
    g.edgeAttrs? call other = some attrs ↔
      ∃ edge ∈ g.edges, g.slot? call = some edge.source ∧ g.slot? other = some edge.target ∧
        edge.attrs = attrs := by
  simp only [edgeAttrs?, Option.bind_eq_bind, Option.bind_eq_some_iff, h.edgeBetween?_eq_some,
    Option.pure_def, Option.some.injEq]
  constructor
  · rintro ⟨_, hs, _, ht, edge, ⟨he, rfl, rfl⟩, ha⟩
    exact ⟨edge, he, hs, ht, ha⟩
  · rintro ⟨edge, he, hs, ht, ha⟩
    exact ⟨_, hs, _, ht, edge, ⟨he, rfl, rfl⟩, ha⟩

/-- Every end of an edge is the slot of some node. -/
theorem exists_ends (he : edge ∈ g.edges) :
    ∃ a ∈ g.nodes, ∃ b ∈ g.nodes, a.slot = edge.source ∧ b.slot = edge.target := by
  obtain ⟨hs, ht⟩ := h.edges_live edge he
  obtain ⟨a, ha, hsa⟩ := mem_slots.1 hs
  obtain ⟨b, hb, htb⟩ := mem_slots.1 ht
  exact ⟨a, ha, b, hb, hsa, htb⟩

/-- Every edge can be found by calls at its ends. -/
theorem exists_edgeAttrs? (he : edge ∈ g.edges) :
    ∃ u ∈ g.calls, ∃ v ∈ g.calls, g.edgeAttrs? u v = some edge.attrs := by
  obtain ⟨a, ha, b, hb, hsource, htarget⟩ := h.exists_ends he
  refine ⟨a.call, List.mem_map_of_mem ha, b.call, List.mem_map_of_mem hb, ?_⟩
  rw [h.edgeAttrs?_eq_some, h.slot?_of_mem ha, h.slot?_of_mem hb, hsource, htarget]
  exact ⟨edge, he, rfl, rfl, rfl⟩

end WellFormed

end CallGraph

end AttackSurface
