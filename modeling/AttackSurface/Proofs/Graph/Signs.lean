import AttackSurface.Proofs.Graph.Removal
import AttackSurface.Proofs.Graph.Union
import Mathlib.Order.Lattice

/-! Signs: what can be asked of attributes so that a merge shows a sign exactly if one of its two
parts shows it. The signs of the nodes and edges of a graph follow every change of it. -/
namespace AttackSurface

/-- Words are ordered by the numbers that they stand for. -/
instance instLinearOrderWord : LinearOrder UInt32 where
  le_refl := UInt32.le_refl
  le_trans _ _ _ := UInt32.le_trans
  lt_iff_le_not_ge := Std.LawfulOrderLT.lt_iff
  le_antisymm _ _ := UInt32.le_antisymm
  le_total := UInt32.le_total
  min := min
  max := max
  min_def _ _ := rfl
  max_def _ _ := rfl
  toDecidableLE := inferInstance

/-- A yes-or-no question about the attributes of a node. -/
inductive NodeSign where
  | present
  | mark (mark : Mark)
  /-- Were there at least so many profiles that saw the node? -/
  | seenBy (profiles : UInt32)
  deriving DecidableEq, Repr

/-- A yes-or-no question about the attributes of an edge. -/
inductive EdgeSign where
  | present
  | cflow
  | gprof
  | call
  | returning
  deriving DecidableEq, Repr

/-- The sign that the edge back has to show. -/
def EdgeSign.mirror : EdgeSign → EdgeSign
  | .call => .returning
  | .returning => .call
  | sign => sign

theorem EdgeSign.mirror_mirror (sign : EdgeSign) : sign.mirror.mirror = sign := by
  cases sign <;> rfl

def NodeAttrs.shows {α : Type} (attrs : NodeAttrs α) : NodeSign → Bool
  | .present => true
  | .mark mark => attrs.marks.has mark
  | .seenBy profiles => attrs.frequency.any (profiles ≤ ·)

def EdgeAttrs.shows (attrs : EdgeAttrs) : EdgeSign → Bool
  | .present => true
  | .cflow => attrs.cflow
  | .gprof => attrs.gprof
  | .call => attrs.isCall
  | .returning => attrs.isReturn

theorem NodeAttrs.shows_merge {α : Type} (sign : NodeSign) (a b : NodeAttrs α) :
    (a.merge b).shows sign = (a.shows sign || b.shows sign) := by
  cases sign with
  | present => rfl
  | mark mark => exact Marks.has_union ..
  | seenBy profiles =>
    refine Option.any_merge fun m n => Bool.eq_iff_iff.2 ?_
    simp only [Bool.or_eq_true, decide_eq_true_eq]
    exact le_sup_iff

theorem EdgeAttrs.shows_merge (sign : EdgeSign) (a b : EdgeAttrs) :
    (a.merge b).shows sign = (a.shows sign || b.shows sign) := by
  cases sign <;> rfl

theorem NodeAttrs.marks_eq_of_shows {α : Type} {a b : NodeAttrs α}
    (h : ∀ sign, a.shows sign = b.shows sign) : a.marks = b.marks := by
  apply Marks.ext_has
  intro mark
  exact h (.mark mark)

theorem EdgeAttrs.flags_eq_of_shows {a b : EdgeAttrs} (h : ∀ sign, a.shows sign = b.shows sign) :
    { a with weight := none } = { b with weight := none } := by
  have hcflow := h .cflow
  have hgprof := h .gprof
  have hcall := h .call
  have hreturning := h .returning
  simp only [EdgeAttrs.shows] at hcflow hgprof hcall hreturning
  rw [hcflow, hgprof, hcall, hreturning]

/-- Two parts of graphs that show the same signs look alike as far as the signs tell. -/
theorem map_eq_map_of_any {β γ σ : Type} {shows : β → σ → Bool} {observe : β → γ} {x y : Option β}
    (h : ∀ sign, x.any (shows · sign) = y.any (shows · sign)) (present : σ)
    (hpresent : ∀ b, shows b present = true)
    (determined : ∀ a ∈ x, ∀ b ∈ y, (∀ sign, shows a sign = shows b sign) → observe a = observe b) :
    x.map observe = y.map observe := by
  cases x with
  | none =>
    cases y with
    | none => rfl
    | some b => simpa [hpresent] using h present
  | some a =>
    cases y with
    | none => simpa [hpresent] using h present
    | some b => exact congrArg some (determined a rfl b rfl fun sign => by simpa using h sign)

namespace CallGraph

variable {α : Type} {g other : CallGraph α} {call u v : Call} {source target : Nat}

def nodeShows (g : CallGraph α) (sign : NodeSign) (call : Call) : Bool :=
  (g.attrs? call).any (·.shows sign)

def edgeShows (g : CallGraph α) (sign : EdgeSign) (u v : Call) : Bool :=
  (g.edgeAttrs? u v).any (·.shows sign)

/-- The sign of the edge between two slots. -/
def joinShows (g : CallGraph α) (sign : EdgeSign) (source target : Nat) : Bool :=
  (g.joined? source target).any (·.shows sign)

theorem nodeShows_of_attrs? {attrs : NodeAttrs α} (h : g.attrs? u = some attrs) (sign : NodeSign) :
    g.nodeShows sign u = attrs.shows sign := by
  rw [nodeShows, h, Option.any_some]

theorem edgeShows_of_edgeAttrs? {attrs : EdgeAttrs} (h : g.edgeAttrs? u v = some attrs)
    (sign : EdgeSign) : g.edgeShows sign u v = attrs.shows sign := by
  rw [edgeShows, h, Option.any_some]

theorem nodeShows_congr {other : Call} (sign : NodeSign) (h : call.identity = other.identity) :
    g.nodeShows sign call = g.nodeShows sign other := by
  rw [nodeShows, nodeShows, attrs?_congr h]

theorem edgeShows_congr {a b : Call} (sign : EdgeSign) (hu : u.identity = a.identity)
    (hv : v.identity = b.identity) : g.edgeShows sign u v = g.edgeShows sign a b := by
  rw [edgeShows, edgeShows, edgeAttrs?, edgeAttrs?, slot?_congr hu, slot?_congr hv]

theorem edgeShows_present : g.edgeShows .present u v = (g.edgeAttrs? u v).isSome := by
  rw [edgeShows]
  cases g.edgeAttrs? u v <;> rfl

theorem present_of_edgeShows {sign : EdgeSign} (hedge : g.edgeShows sign u v) :
    g.edgeShows .present u v := by
  rw [edgeShows_present]
  cases hattrs : g.edgeAttrs? u v with
  | none => simp [edgeShows, hattrs] at hedge
  | some attrs => rfl

theorem edgeShows_iff_joinShows {sign : EdgeSign} :
    g.edgeShows sign u v ↔
      ∃ source target, g.slot? u = some source ∧ g.slot? v = some target ∧
        g.joinShows sign source target := by
  rw [edgeShows, edgeAttrs?_eq_joined?]
  cases g.slot? u <;> cases g.slot? v <;> simp [joinShows]

namespace WellFormed

variable (h : g.WellFormed)

include h

theorem nodeShows_present : g.nodeShows .present call ↔ call.identity ∈ g.identities := by
  rw [← h.isSome_attrs?, nodeShows]
  cases g.attrs? call <;> simp [NodeAttrs.shows]

theorem mem_identities_of_nodeShows {sign : NodeSign} (hnode : g.nodeShows sign call) :
    call.identity ∈ g.identities := by
  rw [← h.isSome_attrs?]
  cases hattrs : g.attrs? call with
  | none => simp [nodeShows, hattrs] at hnode
  | some attrs => rfl

theorem joinShows_iff {sign : EdgeSign} :
    g.joinShows sign source target ↔
      ∃ edge ∈ g.edges, edge.source = source ∧ edge.target = target ∧ edge.attrs.shows sign := by
  simp only [joinShows, joined?, Option.any_map, Option.any_eq_true, h.edgeBetween?_eq_some,
    and_assoc]

theorem edgeShows_iff {sign : EdgeSign} :
    g.edgeShows sign u v ↔
      ∃ edge ∈ g.edges, g.slot? u = some edge.source ∧ g.slot? v = some edge.target ∧
        edge.attrs.shows sign := by
  simp only [edgeShows, Option.any_eq_true, h.edgeAttrs?_eq_some]
  constructor
  · rintro ⟨_, ⟨edge, he, hu, hv, rfl⟩, hsign⟩
    exact ⟨edge, he, hu, hv, hsign⟩
  · rintro ⟨edge, he, hu, hv, hsign⟩
    exact ⟨edge.attrs, ⟨edge, he, hu, hv, rfl⟩, hsign⟩

/-- The calls at the ends of an edge are nodes. -/
theorem mem_identities_of_edgeShows {sign : EdgeSign} (hedge : g.edgeShows sign u v) :
    u.identity ∈ g.identities ∧ v.identity ∈ g.identities := by
  obtain ⟨edge, -, hu, hv, -⟩ := h.edgeShows_iff.1 hedge
  rw [← h.isSome_slot?, ← h.isSome_slot?, hu, hv]
  exact ⟨rfl, rfl⟩

theorem joinShows_addEdgeBetween {attrs : EdgeAttrs} {sign : EdgeSign} {x y : Nat} :
    (g.addEdgeBetween source target attrs).joinShows sign x y ↔
      g.joinShows sign x y ∨ source = x ∧ target = y ∧ attrs.shows sign := by
  unfold joinShows
  rw [h.joined?_addEdgeBetween]
  split
  · rename_i hends
    obtain ⟨rfl, rfl⟩ := hends
    rw [Option.any_merge (EdgeAttrs.shows_merge sign)]
    simp
  · rename_i hends
    have hnew : ¬ (source = x ∧ target = y ∧ attrs.shows sign) := by
      rintro ⟨rfl, rfl, -⟩
      exact hends ⟨rfl, rfl⟩
    exact (or_iff_left hnew).symm

theorem nodeShows_addNode {attrs : NodeAttrs α} {sign : NodeSign} :
    (g.addNode call attrs).nodeShows sign u ↔
      g.nodeShows sign u ∨ u.identity = call.identity ∧ attrs.shows sign := by
  unfold nodeShows
  rw [CallGraph.addNode, h.attrs?_addNodeWith]
  split
  · rename_i hi
    rw [Option.any_merge (NodeAttrs.shows_merge sign), attrs?_congr hi]
    simp [hi]
  · rename_i hi
    simp [hi]

theorem nodeShows_removeNode {sign : NodeSign} :
    (g.removeNode call).nodeShows sign u ↔ g.nodeShows sign u ∧ u.identity ≠ call.identity := by
  unfold nodeShows
  rw [h.attrs?_removeNode]
  split
  · rename_i hi
    simp [hi]
  · rename_i hi
    simp [hi]

theorem edgeShows_addNode {attrs : NodeAttrs α} {sign : EdgeSign} :
    (g.addNode call attrs).edgeShows sign u v = g.edgeShows sign u v := by
  rw [edgeShows, CallGraph.addNode, h.edgeAttrs?_addNodeWith, edgeShows]

theorem edgeShows_addEdge {caller callee : Call} {attrs : EdgeAttrs} {sign : EdgeSign} :
    (g.addEdge caller callee attrs).edgeShows sign u v ↔
      g.edgeShows sign u v ∨
        u.identity = caller.identity ∧ v.identity = callee.identity ∧ attrs.shows sign := by
  unfold edgeShows
  rw [h.edgeAttrs?_addEdge]
  split
  · rename_i hends
    rw [Option.any_merge (EdgeAttrs.shows_merge sign)]
    simp [hends]
  · rename_i hends
    have hnew : ¬ (u.identity = caller.identity ∧ v.identity = callee.identity ∧
        attrs.shows sign) := by
      rintro ⟨hu, hv, -⟩
      exact hends ⟨hu, hv⟩
    exact (or_iff_left hnew).symm

theorem edgeShows_removeNode {sign : EdgeSign} :
    (g.removeNode call).edgeShows sign u v ↔
      g.edgeShows sign u v ∧ u.identity ≠ call.identity ∧ v.identity ≠ call.identity := by
  unfold edgeShows
  rw [h.edgeAttrs?_removeNode]
  split
  · rename_i hends
    simp only [Option.any_none, Bool.false_eq_true, false_iff, not_and]
    exact fun _ hu hv => hends.elim hu hv
  · rename_i hends
    exact ⟨fun hs => ⟨hs, not_or.1 hends⟩, And.left⟩

theorem nodeShows_unionWith {combine : NodeAttrs α → NodeAttrs α → NodeAttrs α}
    (ho : other.WellFormed) {sign : NodeSign}
    (shows : ∀ a b : NodeAttrs α, (combine a b).shows sign = (a.shows sign || b.shows sign)) :
    (g.unionWith combine other).nodeShows sign call =
      (g.nodeShows sign call || other.nodeShows sign call) := by
  rw [nodeShows, h.attrs?_unionWith ho, Option.any_merge shows, nodeShows, nodeShows]

theorem edgeShows_unionWith {combine : NodeAttrs α → NodeAttrs α → NodeAttrs α}
    (ho : other.WellFormed) (sign : EdgeSign) :
    (g.unionWith combine other).edgeShows sign u v =
      (g.edgeShows sign u v || other.edgeShows sign u v) := by
  rw [edgeShows, h.edgeAttrs?_unionWith ho, Option.any_merge (EdgeAttrs.shows_merge sign),
    edgeShows, edgeShows]

end WellFormed

end CallGraph

end AttackSurface
