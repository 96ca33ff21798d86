import AttackSurface.Proofs.Graph.Events
import AttackSurface.Proofs.Graph.Merge

/-! The graph of a listing. It shows what one of the events tells, so that neither their order nor
their repetition matters, and it can be read off the calls that occur. -/
namespace AttackSurface.CallGraph

variable {α : Type} {producer : Producer} {options : Options} {source : String}
  {events : List Event} {u v : Call} {sign : NodeSign}

/-! ## From one event to all -/

/-- What holds of the empty graph and is kept by every event holds of the graph of a listing. -/
theorem ofEvents_induction {P : CallGraph α → Prop} (start : P (empty source))
    (step : ∀ g event, g.WellFormed → P g → P (g.record producer options event)) :
    P (ofEvents source producer options events) := by
  have hall : (ofEvents source producer options events : CallGraph α).WellFormed ∧
      P (ofEvents source producer options events) := by
    refine List.foldlRecOn (motive := fun g => g.WellFormed ∧ P g) events _
      ⟨wellFormed_empty source, start⟩ ?_
    rintro g ⟨h, hg⟩ event -
    exact ⟨h.record producer options event, step g event h hg⟩
  exact hall.2

theorem wellFormed_ofEvents :
    (ofEvents source producer options events : CallGraph α).WellFormed :=
  ofEvents_induction (wellFormed_empty source) fun _ event h _ => h.record producer options event

/-- What a graph shows after one event if it did before or the event tells it, the graph of a
listing shows if one of the events tells it. -/
theorem shows_ofEvents (shows : CallGraph α → Prop) {tells : Event → Prop}
    (step : ∀ g event, g.WellFormed →
      (shows (g.record producer options event) ↔ shows g ∨ tells event))
    (start : ¬ shows (empty source)) :
    shows (ofEvents source producer options events) ↔ ∃ event ∈ events, tells event := by
  have hfold (g : CallGraph α) (h : g.WellFormed) :
      shows (events.foldl (record producer options) g) ↔
        shows g ∨ ∃ event ∈ events, tells event := by
    induction events generalizing g with
    | nil => simp
    | cons event rest ih =>
      rw [List.foldl_cons, ih _ (h.record producer options event), step g event h, or_assoc,
        List.exists_mem_cons_iff]
  rw [ofEvents, hfold _ (wellFormed_empty source)]
  exact or_iff_right start

theorem nodeShows_ofEvents :
    (ofEvents source producer options events : CallGraph α).nodeShows sign u ↔
      ∃ event ∈ events, ∃ told ∈ event.nodesTold (α := α) producer options,
        told.1.identity = u.identity ∧ told.2.shows sign := by
  apply shows_ofEvents fun g => g.nodeShows sign u
  · intro g event h
    exact h.nodeShows_record event
  · simp [nodeShows, attrs?, node?, slot?, empty]

theorem edgeShows_ofEvents {sign : EdgeSign} :
    (ofEvents source producer options events : CallGraph α).edgeShows sign u v ↔
      ∃ event ∈ events, ∃ link ∈ event.linksTold producer options,
        link.1.identity = u.identity ∧ link.2.1.identity = v.identity ∧ link.2.2.shows sign := by
  apply shows_ofEvents fun g => g.edgeShows sign u v
  · intro g event h
    exact h.edgeShows_record event
  · simp [edgeShows, edgeAttrs?, slot?, empty]

/-- The call edges of a listing are the calls that it tells of between calls of the program. -/
theorem edgeShows_call_ofEvents :
    (ofEvents source producer options events : CallGraph α).edgeShows .call u v ↔
      ∃ caller callee, .call caller callee ∈ events ∧
        options.SeenAs caller u ∧ options.SeenAs callee v := by
  simp only [edgeShows_ofEvents, Event.mem_linksTold, Options.seenAs_iff]
  constructor
  · rintro ⟨_, hevent, _, ⟨caller, callee, x, y, rfl, hx, hy, rfl | rfl⟩, hu, hv, hsign⟩
    · exact ⟨caller, callee, hevent, ⟨x, hx, hu⟩, ⟨y, hy, hv⟩⟩
    · exact absurd hsign Bool.false_ne_true
  · rintro ⟨caller, callee, hevent, ⟨x, hx, hu⟩, ⟨y, hy, hv⟩⟩
    exact ⟨_, hevent, _, ⟨caller, callee, x, y, rfl, hx, hy, .inl rfl⟩, hu, hv, rfl⟩

/-- A mark that only callees give is on the callers of those that give it. -/
theorem nodeShows_mark_ofEvents (mark : Mark) {gives : Call → Bool}
    (own : ∀ call, (observed producer options call : NodeAttrs α).shows (.mark mark) = false)
    (given : ∀ caller callee,
      (observedCaller producer options caller callee : NodeAttrs α).shows (.mark mark) =
        gives callee) :
    (ofEvents source producer options events : CallGraph α).nodeShows (.mark mark) u ↔
      ∃ caller callee, .call caller callee ∈ events ∧ options.SeenAs caller u ∧ gives callee := by
  simp only [nodeShows_ofEvents, Event.mem_nodesTold, Options.seenAs_iff]
  constructor
  · rintro ⟨_, hevent, told, ⟨seen, rfl, -, htold⟩ |
      ⟨caller, callee, rfl, ⟨hplace, htold⟩ | ⟨-, -, htold⟩⟩, hu, hmark⟩
    · rw [htold, own] at hmark
      cases hmark
    · rw [htold, given] at hmark
      exact ⟨caller, callee, hevent, ⟨told.1, hplace, hu⟩, hmark⟩
    · rw [htold, own] at hmark
      cases hmark
  · rintro ⟨caller, callee, hevent, ⟨node, hnode, hu⟩, hgives⟩
    refine ⟨_, hevent, (node, observedCaller producer options caller callee),
      .inr ⟨caller, callee, rfl, .inl ⟨hnode, rfl⟩⟩, hu, ?_⟩
    rw [given, hgives]

/-- All that the graph shows, the other one shows as well. -/
structure IsSubgraph (g other : CallGraph α) : Prop where
  nodes : ∀ sign u, g.nodeShows sign u → other.nodeShows sign u
  edges : ∀ sign u v, g.edgeShows sign u v → other.edgeShows sign u v

/-- More events only add to a graph. -/
theorem isSubgraph_ofEvents {others : List Event} (h : events ⊆ others) :
    (ofEvents source producer options events : CallGraph α).IsSubgraph
      (ofEvents source producer options others) where
  nodes sign u hu := by
    obtain ⟨event, hevent, htold⟩ := nodeShows_ofEvents.1 hu
    exact nodeShows_ofEvents.2 ⟨event, h hevent, htold⟩
  edges sign u v huv := by
    obtain ⟨event, hevent, htold⟩ := edgeShows_ofEvents.1 huv
    exact edgeShows_ofEvents.2 ⟨event, h hevent, htold⟩

theorem isSubgraph_ofTrace {trace other : Trace} (h : trace.events ⊆ other.events) :
    (ofTrace source producer options trace : CallGraph α).IsSubgraph
      (ofTrace source producer options other) :=
  have hevents : (ofEvents source producer options trace.events : CallGraph α).IsSubgraph
      (ofEvents source producer options other.events) := isSubgraph_ofEvents h
  ⟨hevents.nodes, hevents.edges⟩

/-! ## What every node and edge of a listing has -/

theorem toldBy_of_ofEvents {attrs : NodeAttrs α}
    (hattrs : (ofEvents source producer options events : CallGraph α).attrs? u = some attrs) :
    attrs.ToldBy producer := by
  revert hattrs attrs u
  apply ofEvents_induction
    (P := fun g : CallGraph α => ∀ {u attrs}, g.attrs? u = some attrs → attrs.ToldBy producer)
  · intro u attrs hattrs
    simp [attrs?, node?, slot?, empty] at hattrs
  · intro g event h hg u attrs hattrs
    rw [h.attrs?_record] at hattrs
    exact h.forall_attrs_addAll (fun _ _ ha hb => ha.merge hb) (fun _ _ => hg)
      (fun _ => Event.toldBy_of_nodesTold) hattrs

theorem weight_of_ofEvents {attrs : EdgeAttrs}
    (hattrs : (ofEvents source producer options events : CallGraph α).edgeAttrs? u v =
      some attrs) : attrs.weight = none := by
  revert hattrs attrs v u
  apply ofEvents_induction
    (P := fun g : CallGraph α => ∀ {u v attrs}, g.edgeAttrs? u v = some attrs →
      attrs.weight = none)
  · intro u v attrs hattrs
    simp [edgeAttrs?, slot?, empty] at hattrs
  · intro g event h hg u v attrs hattrs
    rw [record_eq] at hattrs
    refine (h.addAll _).forall_edgeAttrs_addLinks (P := fun attrs => attrs.weight = none)
      (fun a b ha hb => ?_) (fun x y new hnew => ?_) (fun _ => Event.weight_of_linksTold) hattrs
    · simp [EdgeAttrs.merge, ha, hb]
    · rw [h.edgeAttrs?_addAll] at hnew
      exact hg hnew

/-! ## Listings of the same events -/

theorem attrs?_eq_of_shows {a b : CallGraph α}
    (shows : ∀ sign, a.nodeShows sign u = b.nodeShows sign u)
    (ha : ∀ attrs, a.attrs? u = some attrs → attrs.ToldBy producer)
    (hb : ∀ attrs, b.attrs? u = some attrs → attrs.ToldBy producer) :
    a.attrs? u = b.attrs? u := by
  have hmap : (a.attrs? u).map id = (b.attrs? u).map id := by
    apply map_eq_map_of_any shows .present
    · intro attrs
      rfl
    · intro x hx y hy hsigns
      have hmarks := NodeAttrs.marks_eq_of_shows hsigns
      have hfrequency : x.frequency = y.frequency := by
        rw [(ha x hx).frequency, (hb y hy).frequency]
      have hscores : x.scores = y.scores := by rw [(ha x hx).scores, (hb y hy).scores]
      cases x
      cases y
      simp_all
  rwa [Option.map_id] at hmap

theorem edgeAttrs?_eq_of_shows {a b : CallGraph α}
    (shows : ∀ sign, a.edgeShows sign u v = b.edgeShows sign u v)
    (ha : ∀ attrs, a.edgeAttrs? u v = some attrs → attrs.weight = none)
    (hb : ∀ attrs, b.edgeAttrs? u v = some attrs → attrs.weight = none) :
    a.edgeAttrs? u v = b.edgeAttrs? u v := by
  have hmap : (a.edgeAttrs? u v).map id = (b.edgeAttrs? u v).map id := by
    apply map_eq_map_of_any shows .present
    · intro attrs
      rfl
    · intro x hx y hy hsigns
      have hflags := EdgeAttrs.flags_eq_of_shows hsigns
      have hweight : x.weight = y.weight := (ha x hx).trans (hb y hy).symm
      cases x
      cases y
      simp_all
  rwa [Option.map_id] at hmap

variable {origin : String} {others : List Event}

/-- The graph of a listing depends on which events occur in it, not on their order or number. A node
is marked by the library functions that the calls it stands for call, and all nodes alike are tested
and seen in one profile if the listing is one. -/
theorem events_determine_graph (same : ∀ event, event ∈ events ↔ event ∈ others) :
    (ofEvents source producer options events : CallGraph α).identities.Perm
      (ofEvents origin producer options others : CallGraph α).identities ∧
    (∀ u, (ofEvents source producer options events : CallGraph α).attrs? u =
      (ofEvents origin producer options others).attrs? u) ∧
    (∀ u v, (ofEvents source producer options events : CallGraph α).edgeAttrs? u v =
      (ofEvents origin producer options others : CallGraph α).edgeAttrs? u v) ∧
    (∀ u, ((ofEvents source producer options events : CallGraph α).attrs? u).any (·.marks.entry) ↔
      ∃ caller callee, .call caller callee ∈ events ∧ options.SeenAs caller u ∧ callee.isInput) ∧
    (∀ u, ((ofEvents source producer options events : CallGraph α).attrs? u).any (·.marks.exit) ↔
      ∃ caller callee, .call caller callee ∈ events ∧ options.SeenAs caller u ∧ callee.isOutput) ∧
    (∀ u, ((ofEvents source producer options events : CallGraph α).attrs? u).any
        (·.marks.dangerous) ↔
      ∃ caller callee, .call caller callee ∈ events ∧ options.SeenAs caller u ∧
        callee.isDangerous) ∧
    ∀ u attrs, (ofEvents source producer options events : CallGraph α).attrs? u = some attrs →
      attrs.marks.tested = decide (producer = .gprof) ∧
        attrs.frequency = if producer = .gprof then some 1 else none := by
  have hattrs (u : Call) : (ofEvents source producer options events : CallGraph α).attrs? u =
      (ofEvents origin producer options others).attrs? u := by
    refine attrs?_eq_of_shows (fun sign => Bool.eq_iff_iff.2 ?_) (fun _ => toldBy_of_ofEvents)
      fun _ => toldBy_of_ofEvents
    simp only [nodeShows_ofEvents, same]
  refine ⟨?_, hattrs, fun u v => ?_, fun u => ?_, fun u => ?_, fun u => ?_, fun u attrs h => ?_⟩
  · refine wellFormed_ofEvents.identities_perm wellFormed_ofEvents fun u => ?_
    rw [hattrs]
  · refine edgeAttrs?_eq_of_shows (fun sign => Bool.eq_iff_iff.2 ?_) (fun _ => weight_of_ofEvents)
      fun _ => weight_of_ofEvents
    simp only [edgeShows_ofEvents, same]
  · exact nodeShows_mark_ofEvents .entry (fun _ => rfl) fun _ _ => rfl
  · exact nodeShows_mark_ofEvents .exit (fun _ => rfl) fun _ _ => rfl
  · exact nodeShows_mark_ofEvents .dangerous (fun _ => rfl) fun _ _ => rfl
  · exact ⟨(toldBy_of_ofEvents h).tested, (toldBy_of_ofEvents h).frequency⟩

def greetingCalls : List Event := [
  .call ⟨"main", "./a.c", .c, .function⟩ ⟨"greet", "./b.c", .c, .function⟩,
  .call ⟨"greet", "./b.c", .c, .function⟩ ⟨"printf", "", .c, .function⟩]

/-- The calls in another order, one of them twice. -/
def repeatedGreetingCalls : List Event := [
  .call ⟨"greet", "./b.c", .c, .function⟩ ⟨"printf", "", .c, .function⟩,
  .call ⟨"main", "./a.c", .c, .function⟩ ⟨"greet", "./b.c", .c, .function⟩,
  .call ⟨"greet", "./b.c", .c, .function⟩ ⟨"printf", "", .c, .function⟩]

theorem exit_of_repeatedGreetingCalls :
    (∀ event, event ∈ greetingCalls ↔ event ∈ repeatedGreetingCalls) ∧
    ((ofEvents "b" .gprof {} repeatedGreetingCalls : CallGraph Rat).attrs?
      ⟨"greet", "./b.c", .c, .function⟩).any (·.marks.exit) := by
  have same (event : Event) : event ∈ greetingCalls ↔ event ∈ repeatedGreetingCalls := by
    simp only [greetingCalls, repeatedGreetingCalls, List.mem_cons, List.not_mem_nil]
    grind
  obtain ⟨-, hattrs, -, -, hexit, -⟩ :=
    @events_determine_graph Rat .gprof {} "a" greetingCalls "b" repeatedGreetingCalls same
  refine ⟨same, ?_⟩
  rw [← hattrs, hexit]
  refine ⟨⟨"greet", "./b.c", .c, .function⟩, ⟨"printf", "", .c, .function⟩, ?_,
    ⟨?_, _, rfl, rfl⟩, ?_⟩
  · simp [greetingCalls]
  · decide +kernel
  · decide +kernel

end AttackSurface.CallGraph
