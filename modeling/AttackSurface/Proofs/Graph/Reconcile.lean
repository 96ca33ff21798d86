import AttackSurface.Proofs.Graph.Rename

/-! Renaming several calls one after the other. Where every call is renamed once, and none into a
call that is still to be renamed, the order is of no account: all calls move at once. -/
namespace AttackSurface.CallGraph

variable {α : Type} {g reference : CallGraph α} {call renamed target u v x y : Call}
  {moves : List (Call × Call)}

/-! ## The calls of a renamed graph -/

theorem mem_calls_addNodeWith {combine : NodeAttrs α → NodeAttrs α → NodeAttrs α}
    {attrs : NodeAttrs α} :
    x ∈ (g.addNodeWith combine call attrs).calls ↔
      x ∈ g.calls ∨ g.slot? call = none ∧ x = call := by
  unfold addNodeWith calls
  cases hs : g.slot? call with
  | none => simp [mem_nodes_insertNode, or_and_right, exists_or, or_comm, eq_comm]
  | some slot =>
    have hcall : ((g.updateAt slot fun old => combine old attrs).nodes.map (·.call)) =
        g.nodes.map (·.call) := by
      rw [updateAt, List.map_map]
      refine List.map_congr_left fun node _ => ?_
      simp only [Function.comp_apply]
      split <;> rfl
    simp only [hcall, reduceCtorEq, false_and, or_false]

theorem mem_calls_addNode {attrs : NodeAttrs α} :
    x ∈ (g.addNode call attrs).calls ↔ x ∈ g.calls ∨ g.slot? call = none ∧ x = call :=
  mem_calls_addNodeWith

namespace WellFormed

theorem eq_of_mem_calls (h : g.WellFormed) (hu : u ∈ g.calls) (hv : v ∈ g.calls)
    (hi : u.identity = v.identity) : u = v := by
  obtain ⟨a, ha, rfl⟩ := List.mem_map.1 hu
  obtain ⟨b, hb, rfl⟩ := List.mem_map.1 hv
  rw [h.eq_of_identity ha hb hi]

theorem node?_of_mem_calls (h : g.WellFormed) (hu : u ∈ g.calls) :
    ∃ node ∈ g.nodes, node.call = u ∧ g.node? u = some node := by
  obtain ⟨node, hn, rfl⟩ := List.mem_map.1 hu
  exact ⟨node, hn, rfl, h.node?_eq_some.2 ⟨hn, rfl⟩⟩

theorem mem_calls_removeNode (h : g.WellFormed) :
    x ∈ (g.removeNode call).calls ↔ x ∈ g.calls ∧ x.identity ≠ call.identity := by
  constructor
  · intro hx
    obtain ⟨node, hn, rfl⟩ := List.mem_map.1 hx
    obtain ⟨hn, hi⟩ := h.mem_nodes_removeNode.1 hn
    exact ⟨List.mem_map_of_mem hn, hi⟩
  · rintro ⟨hx, hi⟩
    obtain ⟨node, hn, rfl⟩ := List.mem_map.1 hx
    exact List.mem_map_of_mem (h.mem_nodes_removeNode.2 ⟨hn, hi⟩)

/-- The old call is gone, and the new one is there unless another call has its identity. -/
theorem mem_calls_rename (h : g.WellFormed) (hcall : call ∈ g.calls) :
    x ∈ (g.rename call renamed).calls ↔ (x ∈ g.calls ∧ x.identity ≠ call.identity) ∨
      (g.removeNode call).slot? renamed = none ∧ x = renamed := by
  obtain ⟨node, hn, rfl, hnode⟩ := h.node?_of_mem_calls hcall
  rw [calls, nodes_rename hnode, CallGraph.moved, ← calls, mem_calls_addNode,
    h.mem_calls_removeNode]

end WellFormed

/-! ## One renaming after the other -/

def renames (g : CallGraph α) (moves : List (Call × Call)) : CallGraph α :=
  moves.foldl (fun g move => g.rename move.1 move.2) g

/-- What a call is after all the renamings. -/
def relabels (moves : List (Call × Call)) (u : Call) : Call :=
  moves.foldl (fun u move => relabel move.1 move.2 u) u

theorem reconcileCounted_eq (g reference : CallGraph α) :
    g.reconcileCounted reference =
      (g.renames (g.relocations reference), (g.relocations reference).length) := by
  have hcount (moves : List (Call × Call)) (count : Nat) (g : CallGraph α) :
      moves.foldl (fun counted move => (counted.1.rename move.1 move.2, counted.2 + 1)) (g, count) =
        (g.renames moves, count + moves.length) := by
    induction moves generalizing count g with
    | nil => rfl
    | cons move rest ih =>
      rw [List.foldl_cons, ih, List.length_cons, Nat.add_right_comm, Nat.add_assoc]
      rfl
  exact (hcount _ 0 g).trans (by rw [Nat.zero_add])

theorem reconcile_eq_renames (g reference : CallGraph α) :
    g.reconcile reference = g.renames (g.relocations reference) := by
  rw [reconcile, reconcileCounted_eq]

theorem relabel_congr (hi : u.identity = v.identity) :
    (relabel call renamed u).identity = (relabel call renamed v).identity := by
  unfold relabel
  rw [hi]
  split
  · rfl
  · exact hi

theorem relabels_congr (hi : u.identity = v.identity) :
    (relabels moves u).identity = (relabels moves v).identity := by
  unfold relabels
  induction moves generalizing u v with
  | nil => exact hi
  | cons move rest ih => exact ih (relabel_congr hi)

/-- A call that is not renamed stays. -/
theorem relabels_of_other (others : ∀ move ∈ moves, u.identity ≠ move.1.identity) :
    relabels moves u = u := by
  unfold relabels
  induction moves with
  | nil => rfl
  | cons move rest ih =>
    obtain ⟨hmove, hrest⟩ := List.forall_mem_cons.1 others
    rw [List.foldl_cons, relabel, if_neg hmove]
    exact ih hrest

/-- A call is renamed once if it is listed once and its new identity is not listed. -/
theorem relabels_of_mem (distinct : moves.Pairwise fun a b => a.1.identity ≠ b.1.identity)
    (apart : ∀ a ∈ moves, ∀ b ∈ moves, a.2.identity ≠ b.1.identity)
    (hmove : (call, renamed) ∈ moves) : relabels moves call = renamed := by
  unfold relabels
  induction moves with
  | nil => cases hmove
  | cons move rest ih =>
    obtain ⟨hhead, hrest⟩ := List.pairwise_cons.1 distinct
    rw [List.foldl_cons]
    rcases List.mem_cons.1 hmove with rfl | hlater
    · -- The new identity is none of those still to come, so the call stays from here on.
      rw [relabel, if_pos rfl]
      exact relabels_of_other fun later hlater =>
        apart _ (List.mem_cons_self ..) later (List.mem_cons_of_mem _ hlater)
    · rw [relabel, if_neg (Ne.symm (hhead _ hlater))]
      exact ih hrest (fun a ha b hb =>
        apart a (List.mem_cons_of_mem _ ha) b (List.mem_cons_of_mem _ hb)) hlater

namespace WellFormed

theorem nodeShows_renames (h : g.WellFormed) (moves : List (Call × Call)) {sign : NodeSign} :
    (g.renames moves).nodeShows sign x ↔
      ∃ u, (relabels moves u).identity = x.identity ∧ g.nodeShows sign u := by
  induction moves generalizing g with
  | nil =>
    constructor
    · exact fun hx => ⟨x, rfl, hx⟩
    · rintro ⟨u, hi, hu⟩
      exact nodeShows_congr sign hi ▸ hu
  | cons move rest ih =>
    refine (ih (h.rename move.1 move.2)).trans ?_
    constructor
    · rintro ⟨w, hwx, hw⟩
      obtain ⟨u, huw, hu⟩ := (h.nodeShows_rename move.1 move.2).1 hw
      exact ⟨u, (relabels_congr huw).trans hwx, hu⟩
    · rintro ⟨u, hux, hu⟩
      exact ⟨relabel move.1 move.2 u, hux, (h.nodeShows_rename move.1 move.2).2 ⟨u, rfl, hu⟩⟩

theorem edgeShows_renames (h : g.WellFormed) (moves : List (Call × Call)) {sign : EdgeSign} :
    (g.renames moves).edgeShows sign x y ↔
      ∃ u v, (relabels moves u).identity = x.identity ∧ (relabels moves v).identity = y.identity ∧
        g.edgeShows sign u v := by
  induction moves generalizing g with
  | nil =>
    constructor
    · exact fun hedge => ⟨x, y, rfl, rfl, hedge⟩
    · rintro ⟨u, v, hx, hy, hedge⟩
      exact edgeShows_congr sign hx hy ▸ hedge
  | cons move rest ih =>
    refine (ih (h.rename move.1 move.2)).trans ?_
    constructor
    · rintro ⟨w, z, hwx, hzy, hwz⟩
      obtain ⟨u, v, huw, hvz, huv⟩ := (h.edgeShows_rename move.1 move.2).1 hwz
      exact ⟨u, v, (relabels_congr huw).trans hwx, (relabels_congr hvz).trans hzy, huv⟩
    · rintro ⟨u, v, hux, hvy, huv⟩
      exact ⟨relabel move.1 move.2 u, relabel move.1 move.2 v, hux, hvy,
        (h.edgeShows_rename move.1 move.2).2 ⟨u, v, rfl, rfl, huv⟩⟩

/-- The calls are the new ones, and those that are neither renamed nor named anew. -/
theorem mem_calls_of_renames (h : g.WellFormed) {moves : List (Call × Call)}
    (here : ∀ move ∈ moves, move.1 ∈ g.calls)
    (distinct : moves.Pairwise fun a b => a.1.identity ≠ b.1.identity)
    (hx : x ∈ (g.renames moves).calls) : x ∈ g.calls ∨ ∃ move ∈ moves, x = move.2 := by
  induction moves generalizing g with
  | nil => exact .inl hx
  | cons move rest ih =>
    obtain ⟨hmove, hrest⟩ := List.forall_mem_cons.1 here
    obtain ⟨hhead, htail⟩ := List.pairwise_cons.1 distinct
    have hstill (later : Call × Call) (hlater : later ∈ rest) :
        later.1 ∈ (g.rename move.1 move.2).calls :=
      (h.mem_calls_rename hmove).2 (.inl ⟨hrest later hlater, Ne.symm (hhead later hlater)⟩)
    rcases ih (h.rename move.1 move.2) hstill htail hx with hx | ⟨later, hlater, rfl⟩
    · rcases (h.mem_calls_rename hmove).1 hx with ⟨hx, -⟩ | ⟨-, rfl⟩
      · exact .inl hx
      · exact .inr ⟨move, List.mem_cons_self .., rfl⟩
    · exact .inr ⟨later, List.mem_cons_of_mem _ hlater, rfl⟩

/-- The calls of one name are the same if the renamed calls have other names and keep them. -/
theorem mem_calls_renames_iff (h : g.WellFormed) {moves : List (Call × Call)}
    (here : ∀ move ∈ moves, move.1 ∈ g.calls)
    (distinct : moves.Pairwise fun a b => a.1.identity ≠ b.1.identity)
    (others : ∀ move ∈ moves, move.1.name ≠ x.name ∧ move.2.name ≠ x.name) :
    x ∈ (g.renames moves).calls ↔ x ∈ g.calls := by
  constructor
  · intro hx
    rcases h.mem_calls_of_renames here distinct hx with hx | ⟨move, hmove, rfl⟩
    · exact hx
    · exact absurd rfl (others move hmove).2
  · intro hx
    induction moves generalizing g with
    | nil => exact hx
    | cons move rest ih =>
      obtain ⟨hmove, hrest⟩ := List.forall_mem_cons.1 here
      obtain ⟨hhead, htail⟩ := List.pairwise_cons.1 distinct
      have hstays (u : Call) (hu : u ∈ g.calls) (hne : u.identity ≠ move.1.identity) :
          u ∈ (g.rename move.1 move.2).calls := (h.mem_calls_rename hmove).2 (.inl ⟨hu, hne⟩)
      refine ih (h.rename move.1 move.2) (fun later hlater => ?_) htail
        (fun later hlater => others later (List.mem_cons_of_mem _ hlater)) (hstays x hx fun hi => ?_)
      · exact hstays _ (hrest later hlater) (Ne.symm (hhead later hlater))
      · exact (others move (List.mem_cons_self ..)).1 (by rw [h.eq_of_mem_calls hx hmove hi])

end WellFormed

/-! ## Which calls can be located -/

/-- There is a single call of the name, and it has this signature. -/
def Locates (reference : CallGraph α) (name signature : String) : Prop :=
  signature ≠ "" ∧ ∃ namesake ∈ reference.calls, namesake.name = name ∧
    namesake.signature = signature ∧ ∀ other ∈ reference.calls, other.name = name → other = namesake

theorem locates_congr {name signature : String}
    (same : ∀ x : Call, x.name = name → (x ∈ g.calls ↔ x ∈ reference.calls)) :
    g.Locates name signature ↔ reference.Locates name signature := by
  refine and_congr_right fun _ => exists_congr fun namesake => ?_
  constructor
  · rintro ⟨hmem, hname, hsig, honly⟩
    exact ⟨(same namesake hname).1 hmem, hname, hsig, fun other ho hn =>
      honly other ((same other hn).2 ho) hn⟩
  · rintro ⟨hmem, hname, hsig, honly⟩
    exact ⟨(same namesake hname).2 hmem, hname, hsig, fun other ho hn =>
      honly other ((same other hn).1 ho) hn⟩

/-- A name is not located by a graph that has a call of it without a signature. -/
theorem signature_ne_of_locates {name signature : String} (h : reference.Locates name signature)
    (hu : u ∈ reference.calls) (hname : u.name = name) : u.signature ≠ "" := by
  obtain ⟨hsigned, namesake, -, -, rfl, honly⟩ := h
  rwa [honly u hu hname]

theorem mem_relocations :
    (call, renamed) ∈ g.relocations reference ↔
      call ∈ g.calls ∧ reference.located? call = some renamed := by
  unfold relocations
  rw [List.mem_filterMap]
  constructor
  · rintro ⟨u, hu, hlocated⟩
    obtain ⟨target, htarget, heq⟩ := Option.map_eq_some_iff.1 hlocated
    obtain ⟨rfl, rfl⟩ := Prod.mk.inj heq
    exact ⟨hu, htarget⟩
  · rintro ⟨hcall, hlocated⟩
    exact ⟨call, hcall, by rw [hlocated, Option.map_some]⟩

namespace WellFormed

theorem distinct_calls (h : g.WellFormed) :
    g.calls.Pairwise fun a b => a.identity ≠ b.identity :=
  List.pairwise_map.2 h.distinct_identities

theorem nodup_identities (h : g.WellFormed) : g.identities.Nodup :=
  List.pairwise_map.2 h.distinct_calls

theorem distinct_relocations (h : g.WellFormed) (reference : CallGraph α) :
    (g.relocations reference).Pairwise fun a b => a.1.identity ≠ b.1.identity := by
  refine h.distinct_calls.filterMap _ fun u v hne a ha b hb => ?_
  obtain ⟨_, -, rfl⟩ := Option.map_eq_some_iff.1 ha
  obtain ⟨_, -, rfl⟩ := Option.map_eq_some_iff.1 hb
  exact hne

theorem namesakes_eq_singleton (h : g.WellFormed) {name : String} {namesake : Call} :
    g.namesakes name = [namesake] ↔ name ≠ "" ∧ namesake ∈ g.calls ∧ namesake.name = name ∧
      ∀ other ∈ g.calls, other.name = name → other = namesake := by
  unfold namesakes
  split
  · rename_i hname
    simp [hname]
  · rename_i hname
    have hnodup : (g.calls.filter fun call => call.name = name).Nodup :=
      (h.distinct_calls.imp fun hne heq => hne (by rw [heq])).filter _
    rw [← List.perm_singleton, List.perm_ext_iff_of_nodup hnodup (List.nodup_singleton namesake)]
    simp only [List.mem_filter, decide_eq_true_eq, List.mem_singleton]
    constructor
    · intro hall
      obtain ⟨hmem, hsame⟩ := (hall namesake).2 rfl
      exact ⟨hname, hmem, hsame, fun other ho hn => (hall other).1 ⟨ho, hn⟩⟩
    · rintro ⟨-, hmem, hsame, honly⟩ other
      constructor
      · rintro ⟨ho, hn⟩
        exact honly other ho hn
      · rintro rfl
        exact ⟨hmem, hsame⟩

/-- A call is located if its name is known and its signature is not, and the reference knows
better. -/
theorem located?_eq_some (h : reference.WellFormed) :
    reference.located? call = some target ↔ call.name ≠ "" ∧ call.signature = "" ∧
      ∃ signature, reference.Locates call.name signature ∧
        target = call.withSignature signature := by
  unfold located?
  by_cases hsig : call.signature = ""
  · rw [if_pos (by simpa [Call.isNameOnly] using hsig)]
    constructor
    · intro hlocated
      split at hlocated
      · rename_i namesake hnamesakes
        obtain ⟨hname, hmem, hsame, honly⟩ := h.namesakes_eq_singleton.1 hnamesakes
        split at hlocated
        · cases hlocated
        · rename_i hsigned
          have hsigned : namesake.signature ≠ "" := by simpa [Call.isNameOnly] using hsigned
          exact ⟨hname, hsig, namesake.signature,
            ⟨hsigned, namesake, hmem, hsame, rfl, honly⟩, (Option.some.inj hlocated).symm⟩
      · cases hlocated
    · rintro ⟨hname, -, signature, ⟨hsigned, namesake, hmem, hsame, rfl, honly⟩, rfl⟩
      rw [h.namesakes_eq_singleton.2 ⟨hname, hmem, hsame, honly⟩]
      simp [Call.isNameOnly, hsigned]
  · rw [if_neg (by simpa [Call.isNameOnly] using hsig)]
    simp [hsig]

end WellFormed

end AttackSurface.CallGraph
