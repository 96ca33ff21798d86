import AttackSurface.Proofs.Graph.Grown

/-! The order in which nodes are listed, which is that of their slots. As long as nothing is removed
it is the order in which the nodes were inserted. But a slot that came back is given out again, so
that a node inserted after a removal may be listed before nodes that were there already. -/
namespace AttackSurface

/-- The order of insertion once an identity is inserted, unless it is there. -/
def enter (order : List String) (identity : String) : List String :=
  if identity ∈ order then order else order ++ [identity]

/-- The order of insertion once an identity is gone. -/
def leave (order : List String) (identity : String) : List String := order.filter (· ≠ identity)

theorem enter_of_mem {order : List String} {identity : String} (h : identity ∈ order) :
    enter order identity = order :=
  if_pos h

theorem mem_enter {order : List String} {identity other : String} :
    other ∈ enter order identity ↔ other ∈ order ∨ other = identity := by
  unfold enter
  split
  case isTrue h => exact (or_iff_left_of_imp fun heq => heq ▸ h).symm
  case isFalse h => rw [List.mem_append, List.mem_singleton]

theorem nodup_enter {order : List String} (h : order.Nodup) (identity : String) :
    (enter order identity).Nodup := by
  unfold enter
  split
  case isTrue => exact h
  case isFalse hne => exact (List.perm_append_singleton ..).nodup_iff.2 (List.nodup_cons.2 ⟨hne, h⟩)

theorem mem_foldl_enter {order identities : List String} {other : String} :
    other ∈ identities.foldl enter order ↔ other ∈ order ∨ other ∈ identities := by
  induction identities generalizing order with
  | nil => simp
  | cons identity rest ih => rw [List.foldl_cons, ih, mem_enter, List.mem_cons, or_assoc]

/-- What takes a key that was not in use comes to stand between the smaller and the greater ones. -/
theorem insertSorted_unused {β : Type} (key : β → Nat) {x : β} {xs : List β}
    (ascending : xs.Pairwise fun a b => key a < key b) (unused : ∀ y ∈ xs, key y ≠ key x) :
    insertSorted (fun a b => key a ≤ key b) x xs =
      xs.filter (key · < key x) ++ x :: xs.filter (key x < key ·) := by
  induction xs with
  | nil => rfl
  | cons y rest ih =>
    obtain ⟨hy, hrest⟩ := List.pairwise_cons.1 ascending
    obtain ⟨hne, hunused⟩ := List.forall_mem_cons.1 unused
    unfold insertSorted
    split
    case isTrue hle =>
      have hle : key x ≤ key y := of_decide_eq_true hle
      have hlater : ∀ z ∈ y :: rest, key x < key z := by
        intro z hz
        rcases List.mem_cons.1 hz with rfl | hz
        · omega
        · have := hy z hz
          omega
      rw [List.filter_eq_nil_iff.2 fun z hz => by simpa using Nat.le_of_lt (hlater z hz),
        List.filter_eq_self.2 fun z hz => decide_eq_true (hlater z hz)]
      rfl
    case isFalse hle =>
      have hlt : key y < key x := by simpa using hle
      rw [ih hrest hunused, List.filter_cons_of_pos (by simpa using hlt),
        List.filter_cons_of_neg (by simpa using Nat.le_of_lt hlt)]
      rfl

/-- What takes a key that was in use comes to stand where that was. -/
theorem insertSorted_filter {β : Type} (key : β → Nat) {x : β} {xs : List β}
    (ascending : xs.Pairwise fun a b => key a < key b) (used : ∃ y ∈ xs, key y = key x) :
    insertSorted (fun a b => key a ≤ key b) x (xs.filter fun y => key y ≠ key x) =
      xs.map fun y => if key y = key x then x else y := by
  induction xs with
  | nil =>
    obtain ⟨y, hy, -⟩ := used
    exact absurd hy List.not_mem_nil
  | cons y rest ih =>
    obtain ⟨hy, hrest⟩ := List.pairwise_cons.1 ascending
    by_cases hkey : key y = key x
    · -- All others come later, so that `x` is put before them, in place of `y`.
      have hlater : ∀ z ∈ rest, key x < key z := fun z hz => hkey ▸ hy z hz
      have hkept : rest.filter (fun z => key z ≠ key x) = rest :=
        List.filter_eq_self.2 fun z hz => decide_eq_true (Nat.ne_of_gt (hlater z hz))
      have hsame : rest.map (fun z => if key z = key x then x else z) = rest := by
        refine (List.map_congr_left fun z hz => ?_).trans (List.map_id rest)
        exact if_neg (Nat.ne_of_gt (hlater z hz))
      rw [List.filter_cons_of_neg (by simpa using hkey), hkept, List.map_cons, if_pos hkey, hsame]
      cases rest with
      | nil => rfl
      | cons z later => simp [insertSorted, Nat.le_of_lt (hlater z List.mem_cons_self)]
    · obtain ⟨z, hz, hzx⟩ := used
      have hz : z ∈ rest := (List.mem_cons.1 hz).resolve_left fun heq => hkey (heq ▸ hzx)
      have hbefore : ¬ key x ≤ key y := by
        have := hy z hz
        omega
      rw [List.filter_cons_of_pos (by simpa using hkey), List.map_cons, if_neg hkey, insertSorted,
        if_neg (by simpa using hbefore), ih hrest ⟨z, hz, hzx⟩]

namespace CallGraph

variable {α : Type} {g reference other : CallGraph α} {call : Call} {order : List String}

/-! ## Runs -/

/-- A change of a graph. -/
inductive Change (α : Type) where
  | addNode (call : Call) (attrs : NodeAttrs α)
  | addEdge (caller callee : Call) (attrs : EdgeAttrs)
  | removeNode (call : Call)
  | reconcile (reference : CallGraph α)
  | union (other : CallGraph α)

namespace Change

def apply (g : CallGraph α) : Change α → CallGraph α
  | addNode call attrs => g.addNode call attrs
  | addEdge caller callee attrs => g.addEdge caller callee attrs
  | removeNode call => g.removeNode call
  | reconcile reference => g.reconcile reference
  | union other => g.union other

/-- The identities of the nodes of `g`, in the order in which each was last inserted, after a change.
A renamed node leaves and enters again. -/
def reorder (g : CallGraph α) (order : List String) : Change α → List String
  | addNode call _ => enter order call.identity
  | addEdge caller callee _ => enter (enter order caller.identity) callee.identity
  | removeNode call => leave order call.identity
  | reconcile reference => (g.relocations reference).foldl
    (fun order move => if move.1.identity ∈ order then
      enter (leave order move.1.identity) move.2.identity else order) order
  | union other => other.identities.foldl enter order

/-- The change takes nothing away. -/
def onlyAdds : Change α → Bool
  | removeNode _ => false
  | reconcile _ => false
  | _ => true

end Change

/-- A graph made by changes of the empty one, and its identities in order of insertion. -/
def run (changes : List (Change α)) : CallGraph α × List String :=
  changes.foldl (fun made change => (change.apply made.1, change.reorder made.1 made.2))
    (empty "", [])

/-- What the steps of a union keep of a graph and an order of insertion, the union keeps. -/
theorem union_induction {P : List String → CallGraph α → Prop}
    (node : ∀ {order g}, P order g → ∀ call attrs,
      P (enter order call.identity) (g.addNode call attrs))
    (edge : ∀ {order g}, P order g → ∀ caller callee attrs,
      P (enter (enter order caller.identity) callee.identity) (g.addEdge caller callee attrs))
    (h : P order g) (other : CallGraph α) :
    P (other.identities.foldl enter order) (g.union other) := by
  have hnodes (nodes : List (Node α)) {order : List String} {g : CallGraph α} (h : P order g) :
      P ((nodes.map fun node => node.call.identity).foldl enter order)
        (g.addNodes NodeAttrs.merge nodes) := by
    unfold addNodes
    induction nodes generalizing order g with
    | nil => exact h
    | cons first rest ih => exact ih (node h first.call first.attrs)
  have hlinks (links : List (Call × Call × EdgeAttrs)) {order : List String} {g : CallGraph α}
      (h : P order g)
      (known : ∀ link ∈ links, link.1.identity ∈ order ∧ link.2.1.identity ∈ order) :
      P order (g.addLinks links) := by
    unfold addLinks
    induction links generalizing g with
    | nil => exact h
    | cons link rest ih =>
      obtain ⟨⟨hcaller, hcallee⟩, hrest⟩ := List.forall_mem_cons.1 known
      have hstep := edge h link.1 link.2.1 link.2.2
      rw [enter_of_mem hcaller, enter_of_mem hcallee] at hstep
      exact ih hstep hrest
  have hidentities : other.nodes.map (fun node => node.call.identity) = other.identities := by
    simp [identities, calls]
  have hat {slot : Nat} {call : Call} (hcall : other.callAt? slot = some call) :
      call.identity ∈ other.identities.foldl enter order := by
    obtain ⟨node, hnode, rfl⟩ := Option.map_eq_some_iff.1 hcall
    exact mem_foldl_enter.2 (.inr (mem_identities.2 ⟨node, List.mem_of_find?_eq_some hnode, rfl⟩))
  rw [union, unionWith_eq]
  apply hlinks
  · rw [← hidentities]
    exact hnodes other.nodes h
  · intro link hlink
    obtain ⟨edge, -, hsource, htarget, -⟩ := mem_links.1 hlink
    exact ⟨hat hsource, hat htarget⟩

/-! ## The nodes are those inserted last -/

theorem identities_addEdge (g : CallGraph α) (caller callee : Call) (attrs : EdgeAttrs) :
    (g.addEdge caller callee attrs).identities =
      ((g.addNode caller).addNode callee).identities := by
  obtain ⟨source, target, -, -, heq⟩ := addEdge_eq g caller callee attrs
  rw [heq, identities, calls, nodes_addEdgeBetween]
  rfl

theorem identities_rename {node : Node α} (hn : g.node? call = some node) (renamed : Call) :
    (g.rename call renamed).identities =
      ((g.removeNode call).addNode renamed node.attrs).identities := by
  rw [identities, calls, nodes_rename hn]
  rfl

/-- The identities of the nodes in some order. -/
structure Orders (order : List String) (g : CallGraph α) : Prop where
  wellFormed : g.WellFormed
  nodup : order.Nodup
  mem_iff : ∀ identity, identity ∈ g.identities ↔ identity ∈ order

namespace Orders

theorem perm (h : Orders order g) : g.identities.Perm order :=
  (List.perm_ext_iff_of_nodup h.wellFormed.nodup_identities h.nodup).2 h.mem_iff

theorem addNode (h : Orders order g) (call : Call) (attrs : NodeAttrs α) :
    Orders (enter order call.identity) (g.addNode call attrs) where
  wellFormed := h.wellFormed.addNode call attrs
  nodup := nodup_enter h.nodup call.identity
  mem_iff identity := by
    rw [mem_enter, ← h.mem_iff, identities, List.mem_map, identities, List.mem_map]
    simp only [mem_calls_addNode]
    constructor
    · rintro ⟨other, hother | ⟨-, rfl⟩, rfl⟩
      · exact .inl ⟨other, hother, rfl⟩
      · exact .inr rfl
    · rintro (⟨other, hother, rfl⟩ | rfl)
      · exact ⟨other, .inl hother, rfl⟩
      · cases hs : g.slot? call with
        | none => exact ⟨call, .inr ⟨rfl, rfl⟩, rfl⟩
        | some slot =>
          obtain ⟨node, hn, hi, -⟩ := h.wellFormed.slot?_eq_some.1 hs
          exact ⟨node.call, .inl (List.mem_map_of_mem hn), hi⟩

theorem addEdge (h : Orders order g) (caller callee : Call) (attrs : EdgeAttrs) :
    Orders (enter (enter order caller.identity) callee.identity)
      (g.addEdge caller callee attrs) where
  wellFormed := h.wellFormed.addEdge caller callee attrs
  nodup := nodup_enter (nodup_enter h.nodup _) _
  mem_iff := by
    rw [identities_addEdge]
    exact ((h.addNode caller {}).addNode callee {}).mem_iff

theorem removeNode (h : Orders order g) (call : Call) :
    Orders (leave order call.identity) (g.removeNode call) where
  wellFormed := h.wellFormed.removeNode call
  nodup := h.nodup.filter _
  mem_iff identity := by
    rw [leave, List.mem_filter, ← h.mem_iff, decide_eq_true_eq, identities, List.mem_map,
      identities, List.mem_map]
    simp only [h.wellFormed.mem_calls_removeNode]
    constructor
    · rintro ⟨other, ⟨hother, hne⟩, rfl⟩
      exact ⟨⟨other, hother, rfl⟩, hne⟩
    · rintro ⟨⟨other, hother, rfl⟩, hne⟩
      exact ⟨other, ⟨hother, hne⟩, rfl⟩

theorem rename (h : Orders order g) (call renamed : Call) :
    Orders (if call.identity ∈ order then enter (leave order call.identity) renamed.identity
      else order) (g.rename call renamed) := by
  cases hn : g.node? call with
  | none =>
    rw [if_neg ((h.mem_iff _).not.1 (h.wellFormed.node?_eq_none.1 hn)), rename_of_none hn]
    exact h
  | some node =>
    obtain ⟨hmem, hi⟩ := h.wellFormed.node?_eq_some.1 hn
    have hmoved := (h.removeNode call).addNode renamed node.attrs
    rw [if_pos ((h.mem_iff _).1 (mem_identities.2 ⟨node, hmem, hi⟩))]
    exact ⟨h.wellFormed.rename call renamed, hmoved.nodup,
      identities_rename hn renamed ▸ hmoved.mem_iff⟩

theorem renames (h : Orders order g) (moves : List (Call × Call)) :
    Orders (moves.foldl (fun order move => if move.1.identity ∈ order then
      enter (leave order move.1.identity) move.2.identity else order) order) (g.renames moves) := by
  unfold CallGraph.renames
  induction moves generalizing order g with
  | nil => exact h
  | cons move rest ih => exact ih (h.rename move.1 move.2)

theorem change (h : Orders order g) (change : Change α) :
    Orders (change.reorder g order) (change.apply g) := by
  cases change with
  | addNode call attrs => exact h.addNode call attrs
  | addEdge caller callee attrs => exact h.addEdge caller callee attrs
  | removeNode call => exact h.removeNode call
  | reconcile reference =>
    rw [Change.apply, reconcile_eq_renames]
    exact h.renames _
  | union other =>
    exact union_induction (P := Orders) (fun hg => hg.addNode) (fun hg => hg.addEdge) h other

end Orders

theorem orders_run (changes : List (Change α)) : Orders (run changes).2 (run changes).1 := by
  refine List.foldlRecOn (motive := fun made : CallGraph α × List String => Orders made.2 made.1)
    changes _ ?_ ?_
  · exact ⟨wellFormed_empty "", List.nodup_nil, fun identity => by simp [identities, calls, empty]⟩
  · intro made hmade change _
    exact hmade.change change

/-! ## Where an inserted node is listed -/

theorem identities_addNode_of_mem (h : g.WellFormed) (hmem : call.identity ∈ g.identities)
    (attrs : NodeAttrs α) : (g.addNode call attrs).identities = g.identities := by
  obtain ⟨slot, hs⟩ := Option.isSome_iff_exists.1 (h.isSome_slot?.2 hmem)
  have hsame := map_nodes_updateAt (g := g) (fun _ call => call.identity) slot
    fun old => old.merge attrs
  simpa [addNode, addNodeWith, hs, identities, calls, Function.comp_def] using hsame

theorem addNode_of_notMem (h : g.WellFormed) (hmem : call.identity ∉ g.identities)
    (attrs : NodeAttrs α) : g.addNode call attrs = g.insertNode call attrs := by
  have hs : g.slot? call = none := by
    rw [← Option.not_isSome_iff_eq_none, h.isSome_slot?]
    exact hmem
  simp [addNode, addNodeWith, hs]

namespace WellFormed

variable (h : g.WellFormed)

include h

theorem slot_eq_iff {slot : Nat} (hs : g.slot? call = some slot) {node : Node α}
    (hn : node ∈ g.nodes) : node.slot = slot ↔ node.call.identity = call.identity := by
  rw [← h.slot?_eq_slot? hs, h.slot?_of_mem hn, Option.some.injEq]

/-- A new node takes the slot that came back last, or else one above all, and is listed by it. -/
theorem identities_addNode (hmem : call.identity ∉ g.identities) (attrs : NodeAttrs α) :
    (g.addNode call attrs).identities =
      (g.nodes.filter (·.slot < g.nodeSlots.next)).map (·.call.identity) ++
        call.identity :: (g.nodes.filter (g.nodeSlots.next < ·.slot)).map (·.call.identity) := by
  have hunused : ∀ node ∈ g.nodes, node.slot ≠ g.nodeSlots.next := fun node hn heq =>
    h.nodeSlots.next_notMem (heq ▸ mem_slots_of_mem hn)
  have hnodes : (g.insertNode call attrs).nodes = _ :=
    insertSorted_unused Node.slot (List.pairwise_map.1 h.ascending) hunused
  rw [addNode_of_notMem h hmem, identities, calls, hnodes]
  simp [Function.comp_def]

theorem identities_removeNode (gone : Call) :
    (g.removeNode gone).identities = g.identities.filter (· ≠ gone.identity) := by
  cases hs : g.slot? gone with
  | none =>
    have hmem : gone.identity ∉ g.identities := by simp [← h.isSome_slot?, hs]
    rw [removeNode_of_none hs, List.filter_eq_self.2]
    exact fun identity hi => decide_eq_true fun heq => hmem (heq ▸ hi)
  | some slot =>
    have hnodes : (g.removeNode gone).nodes = g.nodes.filter (·.slot ≠ slot) := by
      simp [CallGraph.removeNode, hs, removeAt]
    rw [identities, calls, hnodes, identities, calls, List.map_map, List.map_map, List.filter_map]
    congr 1
    apply List.filter_congr
    intro node hn
    simp [h.slot_eq_iff hs hn]

/-- A node that is inserted right after a removal is listed in place of the removed one. -/
theorem identities_refill {gone : Call} (hgone : gone.identity ∈ g.identities)
    (fresh : call.identity ∈ g.identities → call.identity = gone.identity) (attrs : NodeAttrs α) :
    ((g.removeNode gone).addNode call attrs).identities = g.identities.map fun identity =>
      if identity = gone.identity then call.identity else identity := by
  obtain ⟨slot, hs⟩ := Option.isSome_iff_exists.1 (h.isSome_slot?.2 hgone)
  have hmem : call.identity ∉ (g.removeNode gone).identities := by
    rw [h.identities_removeNode, List.mem_filter, decide_eq_true_eq]
    exact fun hcall => hcall.2 (fresh hcall.1)
  let node : Node α := ⟨slot, call, attrs⟩
  have hnodes : ((g.removeNode gone).insertNode call attrs).nodes =
      insertSorted (fun a b => a.slot ≤ b.slot) node (g.nodes.filter (·.slot ≠ slot)) := by
    simp [CallGraph.removeNode, hs, removeAt, CallGraph.insertNode, SlotPool.giveBack,
      SlotPool.next, node]
  obtain ⟨old, hold, hslot⟩ := mem_slots.1 (h.mem_slots_of_slot? hs)
  have hrefill := insertSorted_filter Node.slot (x := node) (List.pairwise_map.1 h.ascending)
    ⟨old, hold, hslot⟩
  rw [addNode_of_notMem (h.removeNode gone) hmem, identities, calls, hnodes, hrefill]
  simp only [identities, calls, List.map_map]
  apply List.map_congr_left
  intro other hother
  simp only [Function.comp_apply, node, h.slot_eq_iff hs hother]
  split <;> rfl

end WellFormed

/-! ## Where nothing is removed -/

/-- Nothing was removed, and the nodes are listed in the order of insertion. -/
def ListedIn (order : List String) (g : CallGraph α) : Prop := g.Grown ∧ g.identities = order

namespace ListedIn

theorem addNode (h : ListedIn order g) (call : Call) (attrs : NodeAttrs α) :
    ListedIn (enter order call.identity) (g.addNode call attrs) := by
  obtain ⟨hgrown, rfl⟩ := h
  refine ⟨hgrown.addNodeWith NodeAttrs.merge call attrs, ?_⟩
  unfold enter
  split
  case isTrue hmem => exact identities_addNode_of_mem hgrown.wellFormed hmem attrs
  case isFalse hmem =>
    rw [addNode_of_notMem hgrown.wellFormed hmem, identities, calls, hgrown.nodes_insertNode]
    simp [identities, calls]

theorem addEdge (h : ListedIn order g) (caller callee : Call) (attrs : EdgeAttrs) :
    ListedIn (enter (enter order caller.identity) callee.identity)
      (g.addEdge caller callee attrs) :=
  ⟨h.1.addEdge caller callee attrs,
    (identities_addEdge ..).trans ((h.addNode caller {}).addNode callee {}).2⟩

theorem change (h : ListedIn order g) {change : Change α} (adds : change.onlyAdds) :
    ListedIn (change.reorder g order) (change.apply g) := by
  cases change with
  | addNode call attrs => exact h.addNode call attrs
  | addEdge caller callee attrs => exact h.addEdge caller callee attrs
  | removeNode call => cases adds
  | reconcile reference => cases adds
  | union other =>
    exact union_induction (P := ListedIn) (fun hg => hg.addNode) (fun hg => hg.addEdge) h other

end ListedIn

theorem listedIn_run {changes : List (Change α)} (adds : ∀ change ∈ changes, change.onlyAdds) :
    ListedIn (run changes).2 (run changes).1 := by
  refine List.foldlRecOn (motive := fun made : CallGraph α × List String => ListedIn made.2 made.1)
    changes _ ⟨.empty "", rfl⟩ ?_
  intro made hmade change hchange
  exact hmade.change (adds change hchange)

theorem run_concat (changes : List (Change α)) (change : Change α) :
    (run (changes ++ [change])).1 = change.apply (run changes).1 := by
  simp [run]

/-- After any changes the nodes listed are those inserted and not removed, and as long as there were
only insertions they are listed in this order. But they are listed by slot: a new node comes to stand
where its slot tells, in place of the removed node if it is inserted right after a removal, which
itself moves no other node. -/
theorem order_of_run (changes : List (Change α)) :
    (run changes).1.identities.Perm (run changes).2 ∧
    ((∀ change ∈ changes, change.onlyAdds) → (run changes).1.identities = (run changes).2) ∧
    (run changes).1.slots.Pairwise (· < ·) ∧
    (∀ name, ((run changes).1.callsWith name).Sublist (run changes).1.calls) ∧
    (∀ call attrs, call.identity ∉ (run changes).1.identities →
      (run (changes ++ [.addNode call attrs])).1.identities =
        ((run changes).1.nodes.filter (·.slot < (run changes).1.nodeSlots.next)).map
            (·.call.identity) ++ call.identity ::
          ((run changes).1.nodes.filter ((run changes).1.nodeSlots.next < ·.slot)).map
            (·.call.identity)) ∧
    (∀ gone, (run (changes ++ [.removeNode gone])).1.identities =
      (run changes).1.identities.filter (· ≠ gone.identity)) ∧
    ∀ gone call attrs, gone.identity ∈ (run changes).1.identities →
      (call.identity ∈ (run changes).1.identities → call.identity = gone.identity) →
      (run (changes ++ [.removeNode gone] ++ [.addNode call attrs])).1.identities =
        (run changes).1.identities.map fun identity =>
          if identity = gone.identity then call.identity else identity := by
  have horders := orders_run changes
  have hwf := horders.wellFormed
  simp only [run_concat]
  refine ⟨horders.perm, fun adds => (listedIn_run adds).2, hwf.ascending, fun name => ?_,
    fun call attrs hmem => hwf.identities_addNode hmem attrs, hwf.identities_removeNode,
    fun gone call attrs hgone fresh => hwf.identities_refill hgone fresh attrs⟩
  exact List.filter_sublist.map Node.call

/-- The third node takes the slot of the first, before that of the second. -/
def refilledSlot : List (Change Rat) := [
  .addNode { name := "f" } {}, .addNode { name := "g" } {}, .removeNode { name := "f" },
  .addNode { name := "h" } {}]

/-- The order of insertion does not survive a removal. -/
theorem order_of_refilledSlot : (run refilledSlot).2 = ["g", "h"] ∧
    (run refilledSlot).1.calls = [{ name := "h" }, { name := "g" }] := by
  decide +kernel

theorem identities_of_refilledSlot : (run refilledSlot).1.identities = ["h", "g"] := by
  obtain ⟨-, -, -, -, -, -, hrefill⟩ := order_of_run refilledSlot.dropLast.dropLast
  exact hrefill { name := "f" } { name := "h" } {} (by decide +kernel)
    fun hmem => absurd hmem (by decide +kernel)

end CallGraph

end AttackSurface
