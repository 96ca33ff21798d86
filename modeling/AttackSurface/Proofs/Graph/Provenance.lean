import AttackSurface.Proofs.Graph.Listing
import AttackSurface.Proofs.Graph.Pairing
import AttackSurface.Proofs.Graph.Quotient

/-! Where the nodes and edges of a merged graph stem from. A listing marks everything it tells of
alike, and a reconciliation mixes nothing of two listings. So the marks of a merged graph tell which
of its nodes and edges the static graph has, and which the profile has. -/
namespace AttackSurface

variable {α : Type} {producer : Producer} {options : Options}

theorem Event.shows_of_linksTold {event : Event} {link : Call × Call × EdgeAttrs}
    (hlink : link ∈ event.linksTold producer options) :
    link.2.2.shows .cflow = decide (producer = .cflow) ∧
      link.2.2.shows .gprof = decide (producer = .gprof) := by
  obtain ⟨_, _, _, _, -, -, -, rfl | rfl⟩ := mem_linksTold.1 hlink
  · exact ⟨rfl, rfl⟩
  · exact ⟨rfl, rfl⟩

/-- The weight of a call or return, which a profile has seen or not. -/
def Weights.tabled (weights : Weights) (isCall profiled : Bool) : Nat :=
  match isCall, profiled with
  | true, true => weights.gprofCall
  | true, false => weights.cflowCall
  | false, true => weights.gprofReturn
  | false, false => weights.cflowReturn

/-- An edge that is a call or a return never falls through to the last weight. -/
theorem Weights.weigh_eq_tabled {attrs : EdgeAttrs} (weights : Weights)
    (directed : attrs.isCall ∨ attrs.isReturn) :
    weights.weigh attrs = weights.tabled attrs.isCall attrs.gprof := by
  obtain ⟨_, gprof, isCall, isReturn, _⟩ := attrs
  cases isCall with
  | true => cases gprof <;> rfl
  | false =>
    obtain rfl : isReturn = true := directed.resolve_left Bool.false_ne_true
    cases gprof <;> rfl

namespace CallGraph

variable {g other reference static profile : CallGraph α} {u v : Call}

/-! ## Signs of all nodes or edges -/

/-- All nodes show the sign if `value` holds, and else none does. -/
def NodesShow (g : CallGraph α) (sign : NodeSign) (value : Prop) : Prop :=
  ∀ u, g.nodeShows sign u ↔ g.nodeShows .present u ∧ value

/-- All edges show the sign if `value` holds, and else none does. -/
def EdgesShow (g : CallGraph α) (sign : EdgeSign) (value : Prop) : Prop :=
  ∀ u v, g.edgeShows sign u v ↔ g.edgeShows .present u v ∧ value

theorem nodesShow_of_attrs {sign : NodeSign} {value : Prop} [Decidable value]
    (attrs : ∀ u attrs, g.attrs? u = some attrs → attrs.shows sign = decide value) :
    g.NodesShow sign value := by
  intro u
  unfold nodeShows
  cases hattrs : g.attrs? u with
  | none => simp
  | some found =>
    rw [Option.any_some, Option.any_some, attrs u found hattrs, decide_eq_true_eq]
    exact (and_iff_right rfl).symm

theorem NodesShow.reconcile {sign : NodeSign} {value : Prop} (h : g.NodesShow sign value)
    (hwf : g.WellFormed) (reference : CallGraph α) :
    (g.reconcile reference).NodesShow sign value := by
  intro x
  rw [reconcile_eq_renames, hwf.nodeShows_renames, hwf.nodeShows_renames]
  simp only [h _, ← and_assoc, exists_and_right]

theorem EdgesShow.reconcile {sign : EdgeSign} {value : Prop} (h : g.EdgesShow sign value)
    (hwf : g.WellFormed) (reference : CallGraph α) :
    (g.reconcile reference).EdgesShow sign value := by
  intro x y
  rw [reconcile_eq_renames, hwf.edgeShows_renames, hwf.edgeShows_renames]
  simp only [h _ _, ← and_assoc, exists_and_right]

theorem NodesShow.removeNode {sign : NodeSign} {value : Prop} (h : g.NodesShow sign value)
    (hwf : g.WellFormed) (call : Call) : (g.removeNode call).NodesShow sign value := by
  intro u
  rw [hwf.nodeShows_removeNode, hwf.nodeShows_removeNode, h u, and_right_comm]

theorem EdgesShow.removeNode {sign : EdgeSign} {value : Prop} (h : g.EdgesShow sign value)
    (hwf : g.WellFormed) (call : Call) : (g.removeNode call).EdgesShow sign value := by
  intro u v
  rw [hwf.edgeShows_removeNode, hwf.edgeShows_removeNode, h u v, and_right_comm]

theorem NodesShow.unionWith {combine : NodeAttrs α → NodeAttrs α → NodeAttrs α} {sign : NodeSign}
    {value : Prop} (h : g.NodesShow sign value) (ho : other.NodesShow sign value)
    (hwf : g.WellFormed) (howf : other.WellFormed)
    (shows : ∀ a b : NodeAttrs α, (combine a b).shows sign = (a.shows sign || b.shows sign)) :
    (g.unionWith combine other).NodesShow sign value := by
  intro u
  have hpresent : (g.unionWith combine other).nodeShows .present u =
      (g.nodeShows .present u || other.nodeShows .present u) :=
    hwf.nodeShows_unionWith howf fun _ _ => rfl
  rw [hwf.nodeShows_unionWith howf shows, hpresent, Bool.or_eq_true, Bool.or_eq_true, h u, ho u,
    or_and_right]

theorem EdgesShow.unionWith {sign : EdgeSign} {value : Prop} (h : g.EdgesShow sign value)
    (ho : other.EdgesShow sign value) (hwf : g.WellFormed) (howf : other.WellFormed)
    (combine : NodeAttrs α → NodeAttrs α → NodeAttrs α) :
    (g.unionWith combine other).EdgesShow sign value := by
  intro u v
  rw [hwf.edgeShows_unionWith howf, hwf.edgeShows_unionWith howf, Bool.or_eq_true, Bool.or_eq_true,
    h u v, ho u v, or_and_right]

/-! ## Graphs of one producer -/

/-- Everything in the graph has the marks of the producer's listings. -/
structure StemsFrom (producer : Producer) (g : CallGraph α) : Prop extends g.Paired where
  tested : g.NodesShow (.mark .tested) (producer = .gprof)
  counted : g.NodesShow (.seenBy 0) (producer = .gprof)
  cflow : g.EdgesShow .cflow (producer = .cflow)
  gprof : g.EdgesShow .gprof (producer = .gprof)

namespace StemsFrom

theorem ofTrace (source : String) (producer : Producer) (options : Options) (trace : Trace) :
    (ofTrace source producer options trace : CallGraph α).StemsFrom producer := by
  have hedges {sign : EdgeSign} {value : Prop} [Decidable value]
      (shows : ∀ event : Event, ∀ link ∈ event.linksTold producer options,
        link.2.2.shows sign = decide value) :
      (CallGraph.ofTrace source producer options trace : CallGraph α).EdgesShow sign value := by
    intro u v
    show (ofEvents source producer options trace.events : CallGraph α).edgeShows sign u v ↔
      (ofEvents source producer options trace.events : CallGraph α).edgeShows .present u v ∧ value
    rw [edgeShows_ofEvents, edgeShows_ofEvents]
    constructor
    · rintro ⟨event, hevent, link, hlink, hu, hv, hsign⟩
      rw [shows event link hlink, decide_eq_true_eq] at hsign
      exact ⟨⟨event, hevent, link, hlink, hu, hv, rfl⟩, hsign⟩
    · rintro ⟨⟨event, hevent, link, hlink, hu, hv, -⟩, hvalue⟩
      exact ⟨event, hevent, link, hlink, hu, hv, by rw [shows event link hlink, decide_eq_true hvalue]⟩
  refine ⟨.ofTrace .., ?_, ?_, ?_, ?_⟩
  · apply nodesShow_of_attrs
    intro u attrs hattrs
    exact (toldBy_of_ofEvents hattrs).tested
  · apply nodesShow_of_attrs
    intro u attrs hattrs
    rw [NodeAttrs.shows, (toldBy_of_ofEvents hattrs).frequency]
    cases producer <;> rfl
  · exact hedges fun event link hlink => (Event.shows_of_linksTold hlink).1
  · exact hedges fun event link hlink => (Event.shows_of_linksTold hlink).2

theorem reconcile (h : g.StemsFrom producer) (reference : CallGraph α) :
    (g.reconcile reference).StemsFrom producer where
  toPaired := h.toPaired.reconcile reference
  tested := h.tested.reconcile h.toWellFormed reference
  counted := h.counted.reconcile h.toWellFormed reference
  cflow := h.cflow.reconcile h.toWellFormed reference
  gprof := h.gprof.reconcile h.toWellFormed reference

theorem empty (source : String) : (empty source : CallGraph α).StemsFrom producer :=
  ofTrace source producer {} {}

theorem addProfile (h : g.StemsFrom producer) (hp : profile.StemsFrom producer) :
    (Gprof.addProfile g profile).StemsFrom producer where
  toPaired := h.toPaired.addProfile hp.toPaired
  tested := h.tested.unionWith hp.tested h.toWellFormed hp.toWellFormed fun a b =>
    Marks.has_union a.marks b.marks .tested
  counted := h.counted.unionWith hp.counted h.toWellFormed hp.toWellFormed fun a b =>
    Option.any_merge fun m n => by simp
  cflow := h.cflow.unionWith hp.cflow h.toWellFormed hp.toWellFormed _
  gprof := h.gprof.unionWith hp.gprof h.toWellFormed hp.toWellFormed _

theorem fragmentize (h : g.StemsFrom producer) : g.fragmentize.StemsFrom producer := by
  refine fragmentize_induction (fun g call hg => ?_) (fun g fragmentation hg => ?_) h
  · exact {
      toPaired := hg.toPaired.removeNode call
      tested := hg.tested.removeNode hg.toWellFormed call
      counted := hg.counted.removeNode hg.toWellFormed call
      cflow := hg.cflow.removeNode hg.toWellFormed call
      gprof := hg.gprof.removeNode hg.toWellFormed call }
  · exact ⟨hg.toPaired.withOrigin .., hg.tested, hg.counted, hg.cflow, hg.gprof⟩

end StemsFrom

/-- The graphs that listings of one tool give, cut down to a fragment or not. -/
inductive Produced : Producer → CallGraph α → Prop
  | cflow {files source reverse options g} (h : Cflow.load files source reverse options = .ok g) :
    Produced .cflow g
  | gprof {files source options g} (h : Gprof.load files source options = .ok g) :
    Produced .gprof g
  /-- Several reports in one graph, in any order of arrival. -/
  | profiles {files options origin arrivals g} (paths : List String)
    (any_order : arrivals.Perm (paths.map fun path => Gprof.load files (.path path) options))
    (h : Gprof.aggregate origin arrivals = .ok g) : Produced .gprof g
  | fragmentize {tool : Producer} {g : CallGraph α} (h : Produced tool g) :
    Produced tool g.fragmentize

theorem Produced.stemsFrom (h : Produced producer g) : g.StemsFrom producer := by
  induction h with
  | cflow h =>
    obtain ⟨trace, rfl⟩ := Cflow.exists_trace_of_load h
    exact .ofTrace ..
  | gprof h =>
    obtain ⟨trace, rfl⟩ := Gprof.exists_trace_of_load h
    exact .ofTrace ..
  | profiles paths any_order h =>
    exact Gprof.profiles_induction any_order (.empty _)
      (fun _ _ _ hg => hg.addProfile (.ofTrace ..)) h
  | fragmentize _ ih => exact ih.fragmentize

/-! ## Merged graphs -/

/-- What a node or an edge of `merged` has tells which of the two graphs it stems from. -/
structure TellsOrigin (static profile merged : CallGraph α) : Prop where
  tested : ∀ {u attrs}, merged.attrs? u = some attrs →
    (attrs.marks.has .tested ↔ u.identity ∈ profile.identities)
  counted : ∀ {u attrs}, merged.attrs? u = some attrs →
    (attrs.frequency.isSome ↔ u.identity ∈ profile.identities)
  frequency : ∀ {u attrs}, merged.attrs? u = some attrs → attrs.frequency = profile.frequency? u
  cflow : ∀ {u v attrs}, merged.edgeAttrs? u v = some attrs →
    (attrs.cflow ↔ (static.edgeAttrs? u v).isSome)
  gprof : ∀ {u v attrs}, merged.edgeAttrs? u v = some attrs →
    (attrs.gprof ↔ (profile.edgeAttrs? u v).isSome)
  isCall : ∀ {u v attrs}, merged.edgeAttrs? u v = some attrs →
    attrs.isCall = (static.edgeShows .call u v || profile.edgeShows .call u v)
  isReturn : ∀ {u v attrs}, merged.edgeAttrs? u v = some attrs →
    attrs.isReturn = (static.edgeShows .returning u v || profile.edgeShows .returning u v)

theorem TellsOrigin.part {merged part : CallGraph α} (h : TellsOrigin static profile merged)
    (hpart : IsPart part merged) : TellsOrigin static profile part where
  tested hattrs := h.tested (hpart.attrs hattrs)
  counted hattrs := h.counted (hpart.attrs hattrs)
  frequency hattrs := h.frequency (hpart.attrs hattrs)
  cflow hattrs := h.cflow (hpart.edgeAttrs hattrs)
  gprof hattrs := h.gprof (hpart.edgeAttrs hattrs)
  isCall hattrs := h.isCall (hpart.edgeAttrs hattrs)
  isReturn hattrs := h.isReturn (hpart.edgeAttrs hattrs)

/-- So the weights of the edges do not depend on anything else. -/
theorem TellsOrigin.weight {merged : CallGraph α} (h : TellsOrigin static profile merged)
    (hp : merged.Paired) {weights : Weights} {attrs : EdgeAttrs}
    (hattrs : (merged.assignWeights weights).edgeAttrs? u v = some attrs) :
    (attrs.isCall ∨ attrs.isReturn) ∧ attrs.weight = some (weights.tabled
      (static.edgeShows .call u v || profile.edgeShows .call u v)
      (profile.edgeAttrs? u v).isSome) := by
  rw [edgeAttrs?_assignWeights, Option.map_eq_some_iff] at hattrs
  obtain ⟨old, hold, rfl⟩ := hattrs
  have hdirected := hp.directed_of_edgeAttrs? hold
  refine ⟨hdirected, ?_⟩
  rw [weights.weigh_eq_tabled hdirected, h.isCall hold, Bool.eq_iff_iff.2 (h.gprof hold)]

namespace StemsFrom

theorem isSome_frequency? (h : g.StemsFrom producer) :
    (g.frequency? u).isSome ↔ u.identity ∈ g.identities ∧ producer = .gprof := by
  have hcounted := h.counted u
  rw [nodeShows_seenBy, h.nodeShows_present] at hcounted
  rw [← hcounted]
  cases g.frequency? u <;> simp

theorem frequency?_merge (hs : static.StemsFrom .cflow) (hp : profile.WellFormed) :
    (static.merge profile).frequency? u = (profile.reconcile static).frequency? u := by
  have hnone : (static.reconcile profile).frequency? u = none := by
    rw [← Option.not_isSome_iff_eq_none, (hs.reconcile profile).isSome_frequency?]
    simp
  unfold frequency? at hnone ⊢
  rw [hs.attrs?_merge hp]
  cases hstatic : (static.reconcile profile).attrs? u with
  | none => rw [Option.merge_none_left]
  | some attrs =>
    rw [hstatic, Option.bind_some] at hnone
    cases (profile.reconcile static).attrs? u with
    | none => exact hnone
    | some other =>
      show attrs.frequency.merge max other.frequency = other.frequency
      rw [hnone, Option.merge_none_left]

theorem tellsOrigin_merge (hs : static.StemsFrom .cflow) (hp : profile.StemsFrom .gprof) :
    TellsOrigin (static.reconcile profile) (profile.reconcile static) (static.merge profile) := by
  have hstatic := hs.reconcile profile
  have hprofile := hp.reconcile static
  have hfrequency {u : Call} {attrs : NodeAttrs α}
      (hattrs : (static.merge profile).attrs? u = some attrs) :
      attrs.frequency = (profile.reconcile static).frequency? u := by
    rw [← hs.frequency?_merge hp.toWellFormed, frequency?, hattrs, Option.bind_some]
  have hnode {u : Call} {attrs : NodeAttrs α} (sign : NodeSign)
      (hattrs : (static.merge profile).attrs? u = some attrs) :
      attrs.shows sign = ((static.reconcile profile).nodeShows sign u ||
        (profile.reconcile static).nodeShows sign u) := by
    rw [← hs.nodeShows_merge hp.toWellFormed, nodeShows_of_attrs? hattrs]
  have hedge {u v : Call} {attrs : EdgeAttrs} (sign : EdgeSign)
      (hattrs : (static.merge profile).edgeAttrs? u v = some attrs) :
      attrs.shows sign = ((static.reconcile profile).edgeShows sign u v ||
        (profile.reconcile static).edgeShows sign u v) := by
    rw [← hs.edgeShows_merge hp.toWellFormed, edgeShows_of_edgeAttrs? hattrs]
  refine ⟨fun hattrs => ?_, fun hattrs => ?_, hfrequency, fun hattrs => ?_, fun hattrs => ?_,
    hedge .call, hedge .returning⟩
  · refine (Bool.eq_iff_iff.1 (hnode (.mark .tested) hattrs)).trans ?_
    rw [Bool.or_eq_true, hstatic.tested, hprofile.tested, hprofile.nodeShows_present]
    simp
  · rw [hfrequency hattrs, hprofile.isSome_frequency?]
    simp
  · refine (Bool.eq_iff_iff.1 (hedge .cflow hattrs)).trans ?_
    rw [Bool.or_eq_true, hstatic.cflow, hprofile.cflow, ← edgeShows_present]
    simp
  · refine (Bool.eq_iff_iff.1 (hedge .gprof hattrs)).trans ?_
    rw [Bool.or_eq_true, hstatic.gprof, hprofile.gprof, ← edgeShows_present]
    simp

end StemsFrom

/-- However a static graph and a profile were loaded, the marks and counts of their merge, cut down
to a fragment or not, tell which nodes the profile has, and the flags which edges each of the two
has. An edge is weighed by whether one of them calls along it, in the column of the profile if that
has it; the edge back stands in the same column. -/
theorem Produced.merge_tellsOrigin (hs : Produced .cflow static) (hp : Produced .gprof profile)
    {merged : CallGraph α}
    (hmerged : merged = static.merge profile ∨ merged = (static.merge profile).fragmentize) :
    (∀ u : Call, u.identity ∈ (static.merge profile).identities ↔
      u.identity ∈ (static.reconcile profile).identities ∨
        u.identity ∈ (profile.reconcile (static.reconcile profile)).identities) ∧
    (∀ u v, ((static.merge profile).edgeAttrs? u v).isSome ↔
      ((static.reconcile profile).edgeAttrs? u v).isSome ∨
        ((profile.reconcile (static.reconcile profile)).edgeAttrs? u v).isSome) ∧
    TellsOrigin (static.reconcile profile) (profile.reconcile (static.reconcile profile)) merged ∧
    (∀ weights u v attrs, (merged.assignWeights weights).edgeAttrs? u v = some attrs →
      (attrs.isCall ∨ attrs.isReturn) ∧ attrs.weight = some (weights.tabled
        ((static.reconcile profile).edgeShows .call u v ||
          (profile.reconcile (static.reconcile profile)).edgeShows .call u v)
        ((profile.reconcile (static.reconcile profile)).edgeAttrs? u v).isSome)) ∧
    (∀ u v, ((merged.edgeAttrs? u v).isSome = (merged.edgeAttrs? v u).isSome) ∧
      ((profile.reconcile (static.reconcile profile)).edgeAttrs? u v).isSome =
        ((profile.reconcile (static.reconcile profile)).edgeAttrs? v u).isSome) ∧
    ∀ weights, ∀ edge ∈ (merged.assignWeights weights).edges, ∃ u ∈ merged.calls,
      ∃ v ∈ merged.calls, (merged.assignWeights weights).edgeAttrs? u v = some edge.attrs := by
  have hstatic := hs.stemsFrom
  have hprofile := hp.stemsFrom
  have hpaired := hstatic.toPaired.merge hprofile.toPaired
  have htells := hstatic.tellsOrigin_merge hprofile
  have hnodes := fun u => hstatic.nodeShows_merge hprofile.toWellFormed (u := u) .present
  have hedges := fun u v => hstatic.edgeShows_merge hprofile.toWellFormed (u := u) (v := v) .present
  rw [← hstatic.reconcile_reconcile hprofile.toWellFormed] at htells hnodes hedges
  have hpart : IsPart merged (static.merge profile) := by
    rcases hmerged with rfl | rfl
    · exact .refl _
    · exact hpaired.isPart_fragmentize
  have hwhole : merged.Paired := by
    rcases hmerged with rfl | rfl
    · exact hpaired
    · exact hpaired.fragmentize
  refine ⟨fun u => ?_, fun u v => ?_, htells.part hpart,
    fun weights u v attrs => (htells.part hpart).weight hwhole,
    fun u v => ⟨hwhole.isSome_edgeAttrs?, ?_⟩, fun weights edge he => ?_⟩
  · rw [← hpaired.nodeShows_present, hnodes, Bool.or_eq_true,
      (hstatic.reconcile _).nodeShows_present, (hprofile.reconcile _).nodeShows_present]
  · rw [← edgeShows_present, hedges, Bool.or_eq_true, edgeShows_present, edgeShows_present]
  · exact (hprofile.toPaired.reconcile _).isSome_edgeAttrs?
  · exact (hwhole.toWellFormed.assignWeights weights).exists_edgeAttrs? he

/-- A report that has seen one of two functions call the other, and knows both by name only. -/
def profiledLines : List String := [
  Gprof.header,
  "[1]    50.0    0.00    0.00       1          f [1]",
  "                0.00    0.00       1/1           g [2]"]

def profiledReport : String := "\n".intercalate profiledLines

def profiledCalls : CallGraph Rat :=
  .ofTrace "<text>" .gprof {} ⟨[.node { name := "f" }, .call { name := "f" } { name := "g" }], []⟩

theorem load_profiledReport : Gprof.load [] (.text profiledReport) {} = .ok profiledCalls := by
  have hread : Format.gprof.listing [] (.text profiledReport) = .ok profiledLines := by
    show Gprof.listing [] (.text profiledReport) = .ok profiledLines
    rw [Gprof.listing_text, profiledReport, Text.textLines_intercalate (by decide) (by decide)]
  have htrace : Gprof.trace profiledLines =
      ⟨[.node { name := "f" }, .call { name := "f" } { name := "g" }], []⟩ := by decide +kernel
  refine (Format.load_of_listing hread {}).trans ?_
  show Except.ok (.ofTrace "<text>" .gprof {} (Gprof.trace profiledLines)) = Except.ok profiledCalls
  rw [htrace]
  rfl

/-- The profile has not seen `g` call `f`, but it has seen the return along the same edge. -/
theorem weight_of_mutualCalls : Cflow.load [] mutualListing false = .ok mutualCalls ∧
    Gprof.load [] (.text profiledReport) {} = .ok profiledCalls ∧ ∃ attrs,
    ((mutualCalls.merge profiledCalls).assignWeights {}).edgeAttrs?
      ⟨"g", "./a.c", .c, .function⟩ ⟨"f", "./a.c", .c, .function⟩ = some attrs ∧
    attrs.weight = some 75 := by
  obtain ⟨-, hedges, -, hweight, -⟩ := (Produced.cflow load_mutualListing).merge_tellsOrigin
    (.gprof load_profiledReport) (.inl rfl)
  obtain ⟨attrs, hattrs⟩ : ∃ attrs, ((mutualCalls.merge profiledCalls).assignWeights {}).edgeAttrs?
      ⟨"g", "./a.c", .c, .function⟩ ⟨"f", "./a.c", .c, .function⟩ = some attrs := by
    rw [← Option.isSome_iff_exists, edgeAttrs?_assignWeights, Option.isSome_map]
    exact (hedges _ _).2 (.inl (by decide +kernel))
  refine ⟨load_mutualListing, load_profiledReport, attrs, hattrs, ?_⟩
  rw [(hweight _ _ _ _ hattrs).2]
  decide +kernel

end CallGraph

end AttackSurface
