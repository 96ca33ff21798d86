import AttackSurface.Proofs.Graph.Signs
import AttackSurface.Trace

/-! What the events of a listing tell. An event adds attributes to nodes and edges and takes none
away, and to add them again changes nothing. So the graph of a listing shows exactly what one of its
events tells, whatever their order and however often each of them comes. -/
namespace AttackSurface

variable {α : Type} {producer : Producer} {options : Options}

/-- The node that a call becomes, unless it is a library function or has no file to be seen as. -/
def Options.place? (options : Options) (call : Call) : Option Call :=
  if call.inLibrary then none else call.at? options.granularity

/-- The call belongs to the program, and at the granularity of the graph it is the node of `u`. -/
def Options.SeenAs (options : Options) (call u : Call) : Prop :=
  call.inLibrary = false ∧
    ∃ node, call.at? options.granularity = some node ∧ node.identity = u.identity

theorem Options.seenAs_iff {call u : Call} :
    options.SeenAs call u ↔
      ∃ node, options.place? call = some node ∧ node.identity = u.identity := by
  unfold SeenAs place?
  cases call.inLibrary <;> simp

/-- What holds of two values and is kept by their merge holds of what is there after it. -/
theorem of_merge_some {β : Type} {P : β → Prop} {f : β → β → β}
    (merge : ∀ a b, P a → P b → P (f a b)) {old : Option β} {added merged : β}
    (hold : ∀ a, old = some a → P a) (hadded : P added)
    (hmerged : old.merge f (some added) = some merged) : P merged := by
  cases old with
  | none =>
    simp only [Option.merge_none_left, Option.some.injEq] at hmerged
    exact hmerged ▸ hadded
  | some a =>
    simp only [Option.merge_some_some, Option.some.injEq] at hmerged
    exact hmerged ▸ merge a added (hold a rfl) hadded

/-- What a listing of `producer` tells of every node alike. -/
structure NodeAttrs.ToldBy (producer : Producer) (attrs : NodeAttrs α) : Prop where
  tested : attrs.marks.tested = decide (producer = .gprof)
  frequency : attrs.frequency = if producer = .gprof then some 1 else none
  scores : attrs.scores = .empty

theorem NodeAttrs.ToldBy.merge {a b : NodeAttrs α} (ha : a.ToldBy producer)
    (hb : b.ToldBy producer) : (a.merge b).ToldBy producer where
  tested := by
    have htested : (a.merge b).marks.tested = (a.marks.tested || b.marks.tested) := rfl
    rw [htested, ha.tested, hb.tested, Bool.or_self]
  frequency := by
    have hfrequency : (a.merge b).frequency = a.frequency.merge max b.frequency := rfl
    rw [hfrequency, ha.frequency, hb.frequency]
    split <;> rfl
  scores := by
    have hscores : (a.merge b).scores = a.scores.merge b.scores := rfl
    rw [hscores, ha.scores, hb.scores]
    rfl

namespace Event

/-- The nodes that an event tells of, each with what it tells. -/
def nodesTold (producer : Producer) (options : Options) : Event → List (Call × NodeAttrs α)
  | .node seen =>
    (options.place? seen).toList.map fun place => (place, observed producer options seen)
  | .call caller callee =>
    match options.place? caller with
    | none => []
    | some place =>
      (place, observedCaller producer options caller callee) ::
        (options.place? callee).toList.map fun place => (place, observed producer options callee)

/-- The edges that an event tells of: one for the call, and one for the return. -/
def linksTold (producer : Producer) (options : Options) : Event → List (Call × Call × EdgeAttrs)
  | .node _ => []
  | .call caller callee =>
    match options.place? caller, options.place? callee with
    | some source, some target =>
      [(source, target, .call producer), (target, source, .returning producer)]
    | _, _ => []

theorem mem_nodesTold {event : Event} {told : Call × NodeAttrs α} :
    told ∈ event.nodesTold producer options ↔
      (∃ seen, event = .node seen ∧ options.place? seen = some told.1 ∧
        told.2 = observed producer options seen) ∨
      ∃ caller callee, event = .call caller callee ∧
        (options.place? caller = some told.1 ∧
            told.2 = observedCaller producer options caller callee ∨
          (options.place? caller).isSome ∧ options.place? callee = some told.1 ∧
            told.2 = observed producer options callee) := by
  obtain ⟨place, attrs⟩ := told
  cases event with
  | node seen =>
    simp only [nodesTold, List.mem_map, Option.mem_toList, Prod.mk.injEq]
    simp [eq_comm (a := attrs)]
  | call caller callee =>
    simp only [nodesTold]
    cases hcaller : options.place? caller with
    | none => simp [hcaller]
    | some source =>
      simp only [List.mem_cons, List.mem_map, Option.mem_toList, Prod.mk.injEq]
      simp [hcaller, eq_comm (a := attrs), eq_comm (a := place)]

theorem mem_linksTold {event : Event} {link : Call × Call × EdgeAttrs} :
    link ∈ event.linksTold producer options ↔
      ∃ caller callee source target, event = .call caller callee ∧
        options.place? caller = some source ∧ options.place? callee = some target ∧
        (link = (source, target, .call producer) ∨
          link = (target, source, .returning producer)) := by
  cases event with
  | node seen => simp [linksTold]
  | call caller callee =>
    simp only [linksTold]
    cases hcaller : options.place? caller with
    | none => simp [hcaller]
    | some source => cases hcallee : options.place? callee <;> simp [hcaller, hcallee]

/-- An event tells of the nodes at both ends of its edges. -/
theorem ends_of_linksTold {event : Event} {link : Call × Call × EdgeAttrs}
    (hlink : link ∈ event.linksTold producer options) :
    (∃ told ∈ event.nodesTold (α := α) producer options, told.1 = link.1) ∧
      ∃ told ∈ event.nodesTold (α := α) producer options, told.1 = link.2.1 := by
  obtain ⟨caller, callee, source, target, rfl, hsource, htarget, hends⟩ := mem_linksTold.1 hlink
  have htold : (∃ told ∈ (Event.call caller callee).nodesTold (α := α) producer options,
      told.1 = source) ∧
      ∃ told ∈ (Event.call caller callee).nodesTold (α := α) producer options,
        told.1 = target := by
    simp [nodesTold, hsource, htarget]
  rcases hends with rfl | rfl
  · exact htold
  · exact htold.symm

theorem weight_of_linksTold {event : Event} {link : Call × Call × EdgeAttrs}
    (hlink : link ∈ event.linksTold producer options) : link.2.2.weight = none := by
  obtain ⟨caller, callee, source, target, -, -, -, rfl | rfl⟩ := mem_linksTold.1 hlink <;> rfl

theorem toldBy_of_nodesTold {event : Event} {told : Call × NodeAttrs α}
    (htold : told ∈ event.nodesTold producer options) : told.2.ToldBy producer := by
  rcases mem_nodesTold.1 htold with ⟨seen, -, -, h⟩ | ⟨caller, callee, -, ⟨-, h⟩ | ⟨-, -, h⟩⟩
  all_goals
    rw [h]
    exact ⟨rfl, rfl, rfl⟩

end Event

namespace CallGraph

variable {g : CallGraph α} {u v : Call} {sign : NodeSign} {source : String} {events : List Event}

/-! ## Nodes and edges one after the other -/

/-- What a new node and the two edges of a call keep, every event keeps. -/
theorem record_induction {P : CallGraph α → Prop} {g : CallGraph α} (start : P g)
    (node : ∀ g call attrs, P g → P (g.addNode call attrs))
    (edges : ∀ g caller callee, P g →
      P ((g.addEdge caller callee (.call producer)).addEdge callee caller (.returning producer)))
    (event : Event) : P (g.record producer options event) := by
  cases event with
  | node call =>
    simp only [CallGraph.record]
    split
    · exact start
    · split
      · exact start
      · exact node _ _ _ start
  | call caller callee =>
    simp only [CallGraph.record]
    split
    · exact start
    · split
      · exact start
      · split
        · exact edges _ _ _ (node _ _ _ (node _ _ _ start))
        · exact node _ _ _ start

def addAll (g : CallGraph α) (told : List (Call × NodeAttrs α)) : CallGraph α :=
  told.foldl (fun g node => g.addNode node.1 node.2) g

theorem record_eq (g : CallGraph α) (event : Event) :
    g.record producer options event =
      (g.addAll (event.nodesTold producer options)).addLinks
        (event.linksTold producer options) := by
  cases event with
  | node call =>
    simp only [record, Event.nodesTold, Options.place?]
    cases call.inLibrary with
    | true => rfl
    | false => cases call.at? options.granularity <;> rfl
  | call caller callee =>
    simp only [record, Event.nodesTold, Event.linksTold, Options.place?, observedCallee?]
    cases caller.inLibrary with
    | true => rfl
    | false =>
      cases caller.at? options.granularity with
      | none => rfl
      | some source =>
        cases callee.inLibrary with
        | true => rfl
        | false => cases callee.at? options.granularity <;> simp [addAll, addLinks]

namespace WellFormed

variable (h : g.WellFormed)

include h

theorem addAll (told : List (Call × NodeAttrs α)) : (g.addAll told).WellFormed :=
  List.foldlRecOn _ _ h fun _ hg node _ => hg.addNode node.1 node.2

theorem nodeShows_addAll (told : List (Call × NodeAttrs α)) :
    (g.addAll told).nodeShows sign u ↔
      g.nodeShows sign u ∨ ∃ node ∈ told, node.1.identity = u.identity ∧ node.2.shows sign := by
  unfold CallGraph.addAll
  induction told generalizing g with
  | nil => simp
  | cons node rest ih =>
    rw [List.foldl_cons, ih (h.addNode node.1 node.2), h.nodeShows_addNode, or_assoc]
    simp only [List.exists_mem_cons_iff, eq_comm (a := u.identity)]

theorem edgeAttrs?_addAll (told : List (Call × NodeAttrs α)) :
    (g.addAll told).edgeAttrs? u v = g.edgeAttrs? u v := by
  unfold CallGraph.addAll
  induction told generalizing g with
  | nil => rfl
  | cons node rest ih => exact (ih (h.addNode node.1 node.2)).trans h.edgeAttrs?_addNodeWith

theorem edgeShows_addLinks (links : List (Call × Call × EdgeAttrs)) {sign : EdgeSign} :
    (g.addLinks links).edgeShows sign u v ↔
      g.edgeShows sign u v ∨ ∃ link ∈ links, link.1.identity = u.identity ∧
        link.2.1.identity = v.identity ∧ link.2.2.shows sign := by
  unfold CallGraph.addLinks
  induction links generalizing g with
  | nil => simp
  | cons link rest ih =>
    rw [List.foldl_cons, ih (h.addEdge link.1 link.2.1 link.2.2), h.edgeShows_addEdge, or_assoc]
    simp only [List.exists_mem_cons_iff, eq_comm (a := u.identity), eq_comm (a := v.identity)]

/-! ## One event -/

theorem record (producer : Producer) (options : Options) (event : Event) :
    (g.record producer options event).WellFormed := by
  rw [record_eq]
  exact (h.addAll _).addLinks _

/-- The edges of an event lead between nodes that it tells of, and leave these alone. -/
theorem attrs?_record (event : Event) :
    (g.record producer options event).attrs? u =
      (g.addAll (event.nodesTold producer options)).attrs? u := by
  have hnodes := h.addAll (event.nodesTold producer options)
  have hpresent {call : Call}
      (hcall : ∃ told ∈ event.nodesTold (α := α) producer options, told.1 = call) :
      ((g.addAll (event.nodesTold producer options)).attrs? call).isSome := by
    obtain ⟨told, htold, rfl⟩ := hcall
    rw [hnodes.isSome_attrs?, ← hnodes.nodeShows_present, h.nodeShows_addAll]
    exact .inr ⟨told, htold, rfl, rfl⟩
  rw [record_eq]
  apply hnodes.attrs?_addLinks
  intro link hlink
  exact (Event.ends_of_linksTold hlink).imp hpresent hpresent

theorem nodeShows_record (event : Event) :
    (g.record producer options event).nodeShows sign u ↔
      g.nodeShows sign u ∨ ∃ told ∈ event.nodesTold (α := α) producer options,
        told.1.identity = u.identity ∧ told.2.shows sign := by
  rw [nodeShows, h.attrs?_record]
  exact h.nodeShows_addAll _

theorem edgeShows_record (event : Event) {sign : EdgeSign} :
    (g.record producer options event).edgeShows sign u v ↔
      g.edgeShows sign u v ∨ ∃ link ∈ event.linksTold producer options,
        link.1.identity = u.identity ∧ link.2.1.identity = v.identity ∧ link.2.2.shows sign := by
  rw [record_eq, (h.addAll _).edgeShows_addLinks, edgeShows, h.edgeAttrs?_addAll]
  rfl

/-! ## What every merge keeps -/

theorem forall_attrs_addAll {P : NodeAttrs α → Prop} (merge : ∀ a b, P a → P b → P (a.merge b))
    (hg : ∀ u attrs, g.attrs? u = some attrs → P attrs) {told : List (Call × NodeAttrs α)}
    (htold : ∀ node ∈ told, P node.2) {attrs : NodeAttrs α}
    (hattrs : (g.addAll told).attrs? u = some attrs) : P attrs := by
  unfold CallGraph.addAll at hattrs
  induction told generalizing g with
  | nil => exact hg u attrs hattrs
  | cons node rest ih =>
    obtain ⟨hnode, hrest⟩ := List.forall_mem_cons.1 htold
    refine ih (h.addNode node.1 node.2) (fun v new hnew => ?_) hrest hattrs
    rw [CallGraph.addNode, h.attrs?_addNodeWith] at hnew
    split at hnew
    · exact of_merge_some merge (hg node.1) hnode hnew
    · exact hg v new hnew

theorem forall_edgeAttrs_addLinks {P : EdgeAttrs → Prop} (merge : ∀ a b, P a → P b → P (a.merge b))
    (hg : ∀ u v attrs, g.edgeAttrs? u v = some attrs → P attrs)
    {links : List (Call × Call × EdgeAttrs)} (hlinks : ∀ link ∈ links, P link.2.2)
    {attrs : EdgeAttrs} (hattrs : (g.addLinks links).edgeAttrs? u v = some attrs) : P attrs := by
  unfold CallGraph.addLinks at hattrs
  induction links generalizing g with
  | nil => exact hg u v attrs hattrs
  | cons link rest ih =>
    obtain ⟨hlink, hrest⟩ := List.forall_mem_cons.1 hlinks
    refine ih (h.addEdge link.1 link.2.1 link.2.2) (fun x y new hnew => ?_) hrest hattrs
    rw [h.edgeAttrs?_addEdge] at hnew
    split at hnew
    · exact of_merge_some merge (hg x y) hlink hnew
    · exact hg x y new hnew

end WellFormed

end CallGraph

end AttackSurface
