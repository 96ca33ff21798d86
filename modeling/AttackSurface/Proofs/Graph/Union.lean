import AttackSurface.Proofs.Graph.Edges

/-! The union of two well-formed call graphs: every node and every edge of either, with combined
attributes. Adding the links of a graph whose nodes are there already leaves the nodes alone. -/
namespace AttackSurface.CallGraph

variable {α : Type} {g other : CallGraph α} {call u v : Call}
  {combine : NodeAttrs α → NodeAttrs α → NodeAttrs α}

/-! ## Adding nodes one after the other -/

def addNodes (combine : NodeAttrs α → NodeAttrs α → NodeAttrs α) (g : CallGraph α)
    (nodes : List (Node α)) : CallGraph α :=
  nodes.foldl (fun g node => g.addNodeWith combine node.call node.attrs) g

theorem WellFormed.addNodes (h : g.WellFormed)
    (combine : NodeAttrs α → NodeAttrs α → NodeAttrs α) (nodes : List (Node α)) :
    (g.addNodes combine nodes).WellFormed :=
  List.foldlRecOn _ _ h fun _ hg node _ => hg.addNodeWith combine node.call node.attrs

theorem WellFormed.edgeAttrs?_addNodes (h : g.WellFormed) (nodes : List (Node α)) :
    (g.addNodes combine nodes).edgeAttrs? u v = g.edgeAttrs? u v := by
  unfold CallGraph.addNodes
  induction nodes generalizing g with
  | nil => rfl
  | cons node rest ih =>
    exact (ih (h.addNodeWith combine node.call node.attrs)).trans h.edgeAttrs?_addNodeWith

theorem WellFormed.attrs?_addNodes (h : g.WellFormed) {nodes : List (Node α)}
    (distinct : nodes.Pairwise fun a b => a.call.identity ≠ b.call.identity) :
    (g.addNodes combine nodes).attrs? call =
      (g.attrs? call).merge combine
        ((nodes.find? fun node => node.call.identity = call.identity).map (·.attrs)) := by
  unfold CallGraph.addNodes
  induction nodes generalizing g with
  | nil => simp
  | cons node rest ih =>
    obtain ⟨hhead, hrest⟩ := List.pairwise_cons.1 distinct
    rw [List.foldl_cons, ih (h.addNodeWith combine node.call node.attrs) hrest,
      h.attrs?_addNodeWith]
    by_cases hi : node.call.identity = call.identity
    · have hnone : (rest.find? fun node => node.call.identity = call.identity) = none := by
        refine List.find?_eq_none.2 fun later hlater => ?_
        simpa [← hi] using Ne.symm (hhead later hlater)
      rw [if_pos hi.symm, hnone, List.find?_cons_of_pos (by simpa using hi), attrs?_congr hi]
      simp
    · rw [if_neg (Ne.symm hi), List.find?_cons_of_neg (by simpa using hi)]

theorem WellFormed.distinct_identities (h : g.WellFormed) :
    g.nodes.Pairwise fun a b => a.call.identity ≠ b.call.identity := by
  have hslots : g.nodes.Pairwise fun a b => a.slot < b.slot := List.pairwise_map.1 h.ascending
  refine hslots.imp_of_mem fun {a b} ha hb hlt hi => ?_
  rw [h.eq_of_identity ha hb hi] at hlt
  exact Nat.lt_irrefl _ hlt

theorem WellFormed.find?_identity (h : g.WellFormed) :
    ((g.nodes.find? fun node => node.call.identity = call.identity).map (·.attrs)) =
      g.attrs? call := by
  have hunique (a : Node α) (ha : a ∈ g.nodes) (b : Node α) (hb : b ∈ g.nodes)
      (hia : decide (a.call.identity = call.identity) = true)
      (hib : decide (b.call.identity = call.identity) = true) : a = b :=
    h.eq_of_identity ha hb ((of_decide_eq_true hia).trans (of_decide_eq_true hib).symm)
  ext attrs
  simp only [h.attrs?_eq_some, Option.map_eq_some_iff, find?_eq_some_of_unique hunique,
    decide_eq_true_eq, and_assoc]

/-! ## Adding links one after the other -/

def addLinks (g : CallGraph α) (links : List (Call × Call × EdgeAttrs)) : CallGraph α :=
  links.foldl (fun g link => g.addEdge link.1 link.2.1 link.2.2) g

theorem unionWith_eq : g.unionWith combine other =
    (g.addNodes combine other.nodes).addLinks other.links := rfl

theorem WellFormed.addLinks (h : g.WellFormed) (links : List (Call × Call × EdgeAttrs)) :
    (g.addLinks links).WellFormed :=
  List.foldlRecOn _ _ h fun _ hg link _ => hg.addEdge link.1 link.2.1 link.2.2

theorem WellFormed.attrs?_addEdge_of_isSome (h : g.WellFormed) {caller callee : Call}
    {attrs : EdgeAttrs} (hcaller : (g.attrs? caller).isSome) (hcallee : (g.attrs? callee).isSome) :
    (g.addEdge caller callee attrs).attrs? call = g.attrs? call := by
  rw [h.attrs?_addEdge]
  split
  · rename_i hends
    rcases hends with hi | hi
    · rw [attrs?_congr hi, ← Option.some_get hcaller, Option.getD_some]
    · rw [attrs?_congr hi, ← Option.some_get hcallee, Option.getD_some]
  · rfl

theorem WellFormed.attrs?_addLinks (h : g.WellFormed) {links : List (Call × Call × EdgeAttrs)}
    (present : ∀ link ∈ links, (g.attrs? link.1).isSome ∧ (g.attrs? link.2.1).isSome) :
    (g.addLinks links).attrs? call = g.attrs? call := by
  unfold CallGraph.addLinks
  induction links generalizing g with
  | nil => rfl
  | cons link rest ih =>
    obtain ⟨⟨hcaller, hcallee⟩, hrest⟩ := List.forall_mem_cons.1 present
    have hkeep (call : Call) :
        (g.addEdge link.1 link.2.1 link.2.2).attrs? call = g.attrs? call :=
      h.attrs?_addEdge_of_isSome hcaller hcallee
    rw [List.foldl_cons, ih (h.addEdge _ _ _), hkeep]
    intro later hlater
    rw [hkeep, hkeep]
    exact hrest later hlater

/-- Whether a link leads from the identity of one call to that of another. -/
def leadsFromTo (u v : Call) (link : Call × Call × EdgeAttrs) : Bool :=
  link.1.identity = u.identity ∧ link.2.1.identity = v.identity

theorem WellFormed.edgeAttrs?_addLinks (h : g.WellFormed) {links : List (Call × Call × EdgeAttrs)}
    (distinct : links.Pairwise fun a b => ¬ leadsFromTo a.1 a.2.1 b) :
    (g.addLinks links).edgeAttrs? u v =
      (g.edgeAttrs? u v).merge EdgeAttrs.merge ((links.find? (leadsFromTo u v)).map (·.2.2)) := by
  unfold CallGraph.addLinks
  induction links generalizing g with
  | nil => simp
  | cons link rest ih =>
    obtain ⟨hhead, hrest⟩ := List.pairwise_cons.1 distinct
    rw [List.foldl_cons, ih (h.addEdge _ _ _) hrest, h.edgeAttrs?_addEdge]
    by_cases hends : leadsFromTo u v link
    · obtain ⟨hu, hv⟩ := of_decide_eq_true hends
      have hnone : rest.find? (leadsFromTo u v) = none := by
        refine List.find?_eq_none.2 fun later hlater => ?_
        simpa only [leadsFromTo, hu, hv] using hhead later hlater
      rw [if_pos ⟨hu.symm, hv.symm⟩, hnone, List.find?_cons_of_pos hends]
      simp
    · have hne : ¬ (u.identity = link.1.identity ∧ v.identity = link.2.1.identity) := by
        rintro ⟨hu, hv⟩
        exact hends (decide_eq_true ⟨hu.symm, hv.symm⟩)
      rw [if_neg hne, List.find?_cons_of_neg hends]

theorem WellFormed.callAt?_eq_some (h : g.WellFormed) {slot : Nat} :
    g.callAt? slot = some call ↔ ∃ node ∈ g.nodes, node.slot = slot ∧ node.call = call := by
  simp only [callAt?, Option.map_eq_some_iff, h.nodeAt?_eq_some, and_assoc]

theorem WellFormed.slot?_of_callAt? (h : g.WellFormed) {slot : Nat}
    (hc : g.callAt? slot = some call) : g.slot? call = some slot := by
  obtain ⟨node, hn, rfl, rfl⟩ := h.callAt?_eq_some.1 hc
  exact h.slot?_of_mem hn

theorem mem_links {link : Call × Call × EdgeAttrs} :
    link ∈ g.links ↔ ∃ edge ∈ g.edges, g.callAt? edge.source = some link.1 ∧
      g.callAt? edge.target = some link.2.1 ∧ edge.attrs = link.2.2 := by
  obtain ⟨caller, callee, attrs⟩ := link
  simp only [links, List.mem_filterMap, mem_sortedBy, Option.bind_eq_bind, Option.bind_eq_some_iff,
    Option.pure_def, Option.some.injEq, Prod.mk.injEq]
  refine exists_congr fun edge => and_congr_right fun _ => ?_
  constructor
  · rintro ⟨_, hs, _, ht, rfl, rfl, rfl⟩
    exact ⟨hs, ht, rfl⟩
  · rintro ⟨hs, ht, ha⟩
    exact ⟨caller, hs, callee, ht, rfl, rfl, ha⟩

theorem WellFormed.edge_of_link (h : g.WellFormed) {link : Call × Call × EdgeAttrs}
    (hlink : leadsFromTo u v link) {edge : Edge} (hs : g.callAt? edge.source = some link.1)
    (ht : g.callAt? edge.target = some link.2.1) :
    g.slot? u = some edge.source ∧ g.slot? v = some edge.target := by
  obtain ⟨hu, hv⟩ := of_decide_eq_true hlink
  rw [← slot?_congr hu, ← slot?_congr hv]
  exact ⟨h.slot?_of_callAt? hs, h.slot?_of_callAt? ht⟩

theorem leadsFromTo_self (link : Call × Call × EdgeAttrs) : leadsFromTo link.1 link.2.1 link := by
  simp [leadsFromTo]

theorem WellFormed.distinct_links (h : g.WellFormed) :
    g.links.Pairwise fun a b => ¬ leadsFromTo a.1 a.2.1 b := by
  have hends : g.edges.Pairwise fun a b => a.ends ≠ b.ends := List.pairwise_map.1 h.ends_nodup
  have hsorted := ((sortedBy_perm (fun a b : Edge => a.slot ≤ b.slot) g.edges).pairwise_iff
    Ne.symm).2 hends
  refine hsorted.filterMap _ fun a b hne la ha lb hb hlink => hne ?_
  simp only [Option.bind_eq_bind, Option.bind_eq_some_iff, Option.pure_def,
    Option.some.injEq] at ha hb
  obtain ⟨caller, hsa, callee, hta, rfl⟩ := ha
  obtain ⟨_, hsb, _, htb, rfl⟩ := hb
  obtain ⟨hua, hva⟩ := h.edge_of_link (leadsFromTo_self (caller, callee, a.attrs)) hsa hta
  obtain ⟨hub, hvb⟩ := h.edge_of_link hlink hsb htb
  exact Prod.ext (Option.some.inj (hua.symm.trans hub)) (Option.some.inj (hva.symm.trans hvb))

theorem WellFormed.find?_links (h : g.WellFormed) :
    (g.links.find? (leadsFromTo u v)).map (·.2.2) = g.edgeAttrs? u v := by
  cases hfind : g.links.find? (leadsFromTo u v) with
  | some link =>
    obtain ⟨edge, he, hs, ht, ha⟩ := mem_links.1 (List.mem_of_find?_eq_some hfind)
    obtain ⟨hu, hv⟩ := h.edge_of_link (List.find?_some hfind) hs ht
    exact (h.edgeAttrs?_eq_some.2 ⟨edge, he, hu, hv, ha⟩).symm
  | none =>
    refine (Option.eq_none_iff_forall_ne_some.2 fun attrs hattrs => ?_).symm
    obtain ⟨edge, he, hu, hv, -⟩ := h.edgeAttrs?_eq_some.1 hattrs
    obtain ⟨a, ha, hai, has⟩ := h.slot?_eq_some.1 hu
    obtain ⟨b, hb, hbi, hbt⟩ := h.slot?_eq_some.1 hv
    have hlink : (a.call, b.call, edge.attrs) ∈ g.links :=
      mem_links.2 ⟨edge, he, h.callAt?_eq_some.2 ⟨a, ha, has, rfl⟩,
        h.callAt?_eq_some.2 ⟨b, hb, hbt, rfl⟩, rfl⟩
    exact List.find?_eq_none.1 hfind _ hlink (decide_eq_true ⟨hai, hbi⟩)

/-! ## The union -/

theorem WellFormed.unionWith (h : g.WellFormed)
    (combine : NodeAttrs α → NodeAttrs α → NodeAttrs α) (other : CallGraph α) :
    (g.unionWith combine other).WellFormed :=
  (h.addNodes combine other.nodes).addLinks other.links

theorem WellFormed.attrs?_unionWith (h : g.WellFormed) (ho : other.WellFormed) :
    (g.unionWith combine other).attrs? call =
      (g.attrs? call).merge combine (other.attrs? call) := by
  have hattrs (call : Call) : (g.addNodes combine other.nodes).attrs? call =
      (g.attrs? call).merge combine (other.attrs? call) := by
    rw [h.attrs?_addNodes ho.distinct_identities, ho.find?_identity]
  have hpresent {slot : Nat} {call : Call} (hc : other.callAt? slot = some call) :
      ((g.addNodes combine other.nodes).attrs? call).isSome := by
    obtain ⟨node, hn, -, rfl⟩ := ho.callAt?_eq_some.1 hc
    simp [hattrs, ho.attrs?_of_mem hn]
  rw [unionWith_eq, (h.addNodes combine other.nodes).attrs?_addLinks, hattrs]
  -- The ends of a link are nodes of `other`, so they were there before any link was added.
  intro link hlink
  obtain ⟨edge, -, hs, ht, -⟩ := mem_links.1 hlink
  exact ⟨hpresent hs, hpresent ht⟩

theorem WellFormed.edgeAttrs?_unionWith (h : g.WellFormed) (ho : other.WellFormed) :
    (g.unionWith combine other).edgeAttrs? u v =
      (g.edgeAttrs? u v).merge EdgeAttrs.merge (other.edgeAttrs? u v) := by
  rw [unionWith_eq, (h.addNodes combine other.nodes).edgeAttrs?_addLinks ho.distinct_links,
    h.edgeAttrs?_addNodes, ho.find?_links]

end AttackSurface.CallGraph
