import AttackSurface.Proofs.Graph.Provenance
import AttackSurface.Proofs.Scores

/-! What the names of attributes tell. Whatever scores a node has, it lists the attributes that it
can be asked for, each once, as long as no score has the name of a built-in attribute. Such a score
is listed as well, but under its name it is the built-in attribute that is asked for. -/
namespace AttackSurface

namespace NodeAttrs

variable {α : Type} {attrs a b : NodeAttrs α} {given : Set String} {name : String}

@[simp] theorem scores_setScore (attrs : NodeAttrs α) (name : String) (value : α) :
    (attrs.setScore name value).scores = attrs.scores.set name value := rfl

/-! ## The names listed -/

/-- Is there a score that can not be asked for, as a built-in attribute has its name? -/
def hides (attrs : NodeAttrs α) (name : String) : Bool :=
  builtInNames.contains name && (attrs.scores.get? name).isSome

theorem hides_iff :
    attrs.hides name ↔ name ∈ builtInNames ∧ (attrs.scores.get? name).isSome := by
  rw [hides, Bool.and_eq_true, List.contains_iff_mem]

theorem hides_setScore (hname : name ∈ builtInNames) (attrs : NodeAttrs α) (value : α) :
    (attrs.setScore name value).hides name := by
  rw [hides_iff, scores_setScore, Scores.get?_set, if_pos rfl]
  exact ⟨hname, rfl⟩

theorem nodup_builtInNames : builtInNames.Nodup := by decide

theorem mem_builtInNames :
    name ∈ builtInNames ↔ (Mark.ofLabel? name).isSome ∨ name = "frequency" := by
  rw [builtInNames, List.mem_append, List.mem_singleton, List.mem_map]
  apply or_congr_left
  constructor
  · rintro ⟨mark, -, rfl⟩
    rw [Mark.ofLabel?_label]
    rfl
  · intro hlabel
    rw [Mark.ofLabel?, List.find?_isSome] at hlabel
    obtain ⟨mark, hmark, heq⟩ := hlabel
    exact ⟨mark, hmark, of_decide_eq_true heq⟩

theorem has_of_notMem (hname : name ∉ builtInNames) :
    attrs.has name = (attrs.scores.get? name).isSome := by
  obtain ⟨hlabel, hfrequency⟩ := not_or.1 (mem_builtInNames.not.1 hname)
  rw [has, Option.not_isSome_iff_eq_none.1 hlabel]
  exact if_neg hfrequency

/-- Scores do not matter to the built-in attributes. -/
theorem has_setScore_of_mem (hname : name ∈ builtInNames) (attrs : NodeAttrs α) (other : String)
    (value : α) : (attrs.setScore other value).has name = attrs.has name := by
  unfold has
  split
  · rfl
  · rename_i hnone
    have hlabel : ¬ (Mark.ofLabel? name).isSome := Option.not_isSome_iff_eq_none.2 hnone
    have hfrequency : name = "frequency" := (mem_builtInNames.1 hname).resolve_left hlabel
    rw [if_pos hfrequency, if_pos hfrequency]
    rfl

/-- What can be asked for is listed once, and a score that can not be once more. -/
theorem count_names (attrs : NodeAttrs α) (name : String) :
    attrs.names.count name = (attrs.has name).toNat + (attrs.hides name).toNat := by
  rw [names, List.count_append, (nodup_builtInNames.filter _).count, attrs.scores.nodup_names.count]
  simp only [List.mem_filter, Scores.mem_names]
  by_cases hname : name ∈ builtInNames
  · have hhides : attrs.hides name = (attrs.scores.get? name).isSome := by
      rw [hides, List.contains_iff_mem.2 hname, Bool.true_and]
    rw [hhides]
    cases attrs.has name <;> cases (attrs.scores.get? name).isSome <;> simp [hname]
  · have hhides : attrs.hides name = false := by
      rw [← Bool.not_eq_true, hides_iff]
      exact fun h => hname h.1
    rw [hhides, has_of_notMem hname]
    cases (attrs.scores.get? name).isSome <;> simp [hname]

theorem mem_names : name ∈ attrs.names ↔ attrs.has name ∨ attrs.hides name := by
  rw [← List.count_pos_iff, count_names]
  cases attrs.has name <;> cases attrs.hides name <;> simp

theorem isEmpty_iff : attrs.isEmpty ↔ ∀ name, ¬ attrs.has name ∧ ¬ attrs.hides name := by
  rw [isEmpty, List.isEmpty_iff, List.eq_nil_iff_forall_not_mem]
  simp only [mem_names, not_or]

/-- The names listed are those of the attributes that can be asked for, each once. -/
structure NamesPresent (attrs : NodeAttrs α) : Prop where
  mem_iff : ∀ name, name ∈ attrs.names ↔ attrs.has name
  nodup : attrs.names.Nodup
  isEmpty_iff : attrs.isEmpty ↔ ∀ name, ¬ attrs.has name

theorem namesPresent_iff : attrs.NamesPresent ↔ ∀ name, ¬ attrs.hides name := by
  constructor
  · intro h name hhides
    -- The score is listed, so the attribute of its name has to be there, and is listed as well.
    have hhas : attrs.has name := (h.mem_iff name).1 (mem_names.2 (.inr hhides))
    have honce := List.nodup_iff_count.1 h.nodup name
    rw [count_names, hhas, hhides] at honce
    exact absurd honce (by decide)
  · intro h
    refine ⟨fun name => ?_, List.nodup_iff_count.2 fun name => ?_, ?_⟩
    · rw [mem_names, or_iff_left (h name)]
    · rw [count_names, Bool.eq_false_iff.2 (h name)]
      exact Bool.toNat_le _
    · rw [isEmpty_iff]
      exact forall_congr' fun name => and_iff_left (h name)

/-! ## What nodes come by -/

/-- The attributes that nodes come by: what listings tell, merged and accumulated, and scores under
the names of `given`. -/
inductive Gathered (given : Set String) : NodeAttrs α → Prop
  | told (marks : Marks) (frequency : Option UInt32) : Gathered given { marks, frequency }
  | merge {a b : NodeAttrs α} (ha : Gathered given a) (hb : Gathered given b) :
    Gathered given (a.merge b)
  | accumulate {a b : NodeAttrs α} (ha : Gathered given a) (hb : Gathered given b) :
    Gathered given (a.accumulate b)
  | setScore {attrs : NodeAttrs α} {name : String} (h : Gathered given attrs)
    (hname : name ∈ given) (value : α) : Gathered given (attrs.setScore name value)

theorem Gathered.mem_given (h : attrs.Gathered given) (hscore : (attrs.scores.get? name).isSome) :
    name ∈ given := by
  have hmerge {a b : NodeAttrs α} (hmerged : ((a.scores.merge b.scores).get? name).isSome) :
      (a.scores.get? name).isSome ∨ (b.scores.get? name).isSome := by
    rwa [Scores.get?_merge, Option.isSome_or, Bool.or_eq_true] at hmerged
  induction h with
  | told marks frequency => cases hscore
  | merge _ _ iha ihb => exact (hmerge hscore).elim iha ihb
  | accumulate _ _ iha ihb => exact (hmerge hscore).elim iha ihb
  | @setScore attrs other _ hother value ih =>
    rw [scores_setScore, Scores.get?_set] at hscore
    split at hscore
    case isTrue heq => exact heq ▸ hother
    case isFalse => exact ih hscore

theorem Gathered.mem_of_hides (h : attrs.Gathered given) (hhides : attrs.hides name) :
    name ∈ given ∧ name ∈ builtInNames :=
  ⟨h.mem_given (hides_iff.1 hhides).2, (hides_iff.1 hhides).1⟩

end NodeAttrs

namespace CallGraph

variable {α : Type} {g other : CallGraph α} {given : Set String} {name : String}
  {attrs : NodeAttrs α} {combine : NodeAttrs α → NodeAttrs α → NodeAttrs α}

/-! ## Graphs of such nodes -/

/-- Every node of the graph came by its attributes that way. -/
def Gathers (given : Set String) (g : CallGraph α) : Prop :=
  ∀ node ∈ g.nodes, node.attrs.Gathered given

theorem mem_nodes_assignRanks [Scalar α] {params : RankParams α} {node : Node α}
    (hnode : node ∈ (g.assignRanks params name).nodes) :
    ∃ old ∈ g.nodes, ∃ rank, node = { old with attrs := old.attrs.setScore name rank } := by
  obtain ⟨⟨old, rank⟩, hmem, rfl⟩ := List.mem_map.1 hnode
  exact ⟨old, (List.of_mem_zip hmem).1, rank, rfl⟩

namespace Gathers

theorem addNodeWith (combines : ∀ a b : NodeAttrs α, a.Gathered given → b.Gathered given →
      (combine a b).Gathered given) (h : g.Gathers given) (call : Call)
    (hattrs : attrs.Gathered given) : (g.addNodeWith combine call attrs).Gathers given := by
  intro node hnode
  unfold CallGraph.addNodeWith at hnode
  split at hnode
  · obtain ⟨old, hold, rfl⟩ := List.mem_map.1 hnode
    split
    · exact combines _ _ (h old hold) hattrs
    · exact h old hold
  · rcases mem_nodes_insertNode.1 hnode with rfl | hold
    · exact hattrs
    · exact h node hold

theorem addNode (h : g.Gathers given) (call : Call) (hattrs : attrs.Gathered given) :
    (g.addNode call attrs).Gathers given :=
  h.addNodeWith (fun _ _ => .merge) call hattrs

theorem addEdge (h : g.Gathers given) (caller callee : Call) (attrs : EdgeAttrs) :
    (g.addEdge caller callee attrs).Gathers given := by
  obtain ⟨source, target, -, -, heq⟩ := addEdge_eq g caller callee attrs
  rw [heq, Gathers, nodes_addEdgeBetween]
  exact (h.addNode caller (.told {} none)).addNode callee (.told {} none)

theorem unionWith (combines : ∀ a b : NodeAttrs α, a.Gathered given → b.Gathered given →
      (combine a b).Gathered given) (h : g.Gathers given) (ho : other.Gathers given) :
    (g.unionWith combine other).Gathers given := by
  rw [unionWith_eq]
  have hnodes : (g.addNodes combine other.nodes).Gathers given :=
    List.foldlRecOn _ _ h fun _ hg node hnode => hg.addNodeWith combines node.call (ho node hnode)
  exact List.foldlRecOn _ _ hnodes fun _ hg link _ => hg.addEdge link.1 link.2.1 link.2.2

theorem union (h : g.Gathers given) (ho : other.Gathers given) : (g.union other).Gathers given :=
  h.unionWith (fun _ _ => .merge) ho

theorem removeNode (h : g.Gathers given) (call : Call) : (g.removeNode call).Gathers given := by
  unfold CallGraph.removeNode
  split
  · exact fun node hnode => h node (List.mem_of_mem_filter hnode)
  · exact h

theorem rename (h : g.Gathers given) (call renamed : Call) :
    (g.rename call renamed).Gathers given := by
  cases hn : g.node? call with
  | none => rwa [rename_of_none hn]
  | some node =>
    obtain ⟨slot, -, hfound⟩ := Option.bind_eq_some_iff.1 hn
    rw [Gathers, nodes_rename hn]
    exact (h.removeNode call).addNode renamed (h node (List.mem_of_find?_eq_some hfound))

theorem reconcile (h : g.Gathers given) (reference : CallGraph α) :
    (g.reconcile reference).Gathers given :=
  reconcile_induction (fun _ call renamed hg => hg.rename call renamed) h

theorem empty (source : String) : (empty source : CallGraph α).Gathers given :=
  fun _ hnode => absurd hnode List.not_mem_nil

theorem merge (h : g.Gathers given) (ho : other.Gathers given) : (g.merge other).Gathers given :=
  ((empty _).union (h.reconcile _)).union (ho.reconcile _)

theorem fragmentize (h : g.Gathers given) : g.fragmentize.Gathers given :=
  fragmentize_induction (fun _ call hg => hg.removeNode call) (fun _ _ hg => hg) h

theorem assignRanks [Scalar α] (h : g.Gathers given) (params : RankParams α)
    (hname : name ∈ given) : (g.assignRanks params name).Gathers given := by
  intro node hnode
  obtain ⟨old, hold, rank, rfl⟩ := mem_nodes_assignRanks hnode
  exact (h old hold).setScore hname rank

theorem ofTrace (source : String) (producer : Producer) (options : Options) (trace : Trace) :
    (ofTrace source producer options trace : CallGraph α).Gathers given := by
  intro node hnode
  have htold := toldBy_of_ofEvents (wellFormed_ofEvents.attrs?_of_mem hnode)
  have hattrs : node.attrs = { marks := node.attrs.marks, frequency := node.attrs.frequency } := by
    rw [← htold.scores]
  exact hattrs ▸ .told node.attrs.marks node.attrs.frequency

end Gathers

/-- The graphs of listings, and what the operations make of them, with ranks assigned under the
names of `given` only. -/
inductive RankedUnder [Scalar α] (given : Set String) : CallGraph α → Prop
  | load {format : Format} {files source options} {g : CallGraph α}
    (h : format.load files source options = .ok g) : RankedUnder given g
  /-- Several profiles in one graph, in any order of arrival. -/
  | aggregate {origin arrivals} {g : CallGraph α}
    (each : ∀ profile, .ok profile ∈ arrivals → RankedUnder given profile)
    (h : Gprof.aggregate origin arrivals = .ok g) : RankedUnder given g
  | reconcile {g reference : CallGraph α} (h : RankedUnder given g)
    (hr : RankedUnder given reference) : RankedUnder given (g.reconcile reference)
  | union {g other : CallGraph α} (h : RankedUnder given g) (ho : RankedUnder given other) :
    RankedUnder given (g.union other)
  | merge {static profile : CallGraph α} (h : RankedUnder given static)
    (hp : RankedUnder given profile) : RankedUnder given (static.merge profile)
  | fragmentize {g : CallGraph α} (h : RankedUnder given g) : RankedUnder given g.fragmentize
  | assignWeights {g : CallGraph α} (h : RankedUnder given g) (weights : Weights) :
    RankedUnder given (g.assignWeights weights)
  | assignRanks {g : CallGraph α} (h : RankedUnder given g) (params : RankParams α)
    {name : String} (hname : name ∈ given) : RankedUnder given (g.assignRanks params name)

theorem RankedUnder.gathers [Scalar α] (h : RankedUnder given g) : g.Gathers given := by
  induction h with
  | @load format files source options g h =>
    obtain ⟨trace, rfl⟩ := format.exists_trace_of_load h
    exact .ofTrace _ _ _ _
  | aggregate each h ih =>
    refine Gprof.aggregate_induction (.empty _) (fun aggregate profile hg hprofile => ?_) h
    exact hg.unionWith (fun _ _ => .accumulate) (ih profile hprofile)
  | reconcile _ _ ih _ => exact ih.reconcile _
  | union _ _ ih iho => exact ih.union iho
  | merge _ _ ih ihp => exact ih.merge ihp
  | fragmentize _ ih => exact ih.fragmentize
  | assignWeights _ _ ih => exact ih
  | assignRanks _ params hname ih => exact ih.assignRanks params hname

/-! ## Asking for attributes -/

theorem callsWith_eq_of_not_hides (h : ∀ node ∈ g.nodes, ¬ node.attrs.hides name) :
    g.callsWith name =
      (g.nodes.filter fun node => node.attrs.names.contains name).map (·.call) := by
  unfold callsWith
  congr 1
  apply List.filter_congr
  intro node hnode
  rw [Bool.eq_iff_iff, List.contains_iff_mem, NodeAttrs.mem_names, or_iff_left (h node hnode)]

/-- Ranks under the name of a built-in attribute do not make a node one that has it. -/
theorem callsWith_assignRanks [Scalar α] (g : CallGraph α) (params : RankParams α)
    (hname : name ∈ NodeAttrs.builtInNames) (other : String) :
    (g.assignRanks params other).callsWith name = g.callsWith name := by
  let ranks := (g.rankRun params).rank.toList
  have hnodes : (g.nodes.zip ranks).map (·.1) = g.nodes := List.map_fst_zip (by simp [ranks])
  have hnew : (g.assignRanks params other).nodes = (g.nodes.zip ranks).map fun ranked =>
      { ranked.1 with attrs := ranked.1.attrs.setScore other ranked.2 } := rfl
  rw [callsWith, hnew, List.filter_map, List.map_map]
  conv_rhs => rw [callsWith, ← hnodes, List.filter_map, List.map_map]
  simp only [Function.comp_def, NodeAttrs.has_setScore_of_mem hname]

/-- What can be asked for is listed once, and beyond that only a score which bears the name of a
built-in attribute is listed. Scores bear the names that ranks were assigned under. So as long as
none of these is a built-in name, the names listed are those of the attributes present, each once,
and asking for a name gives the nodes that list it. Ranks under a built-in name are listed by every
node, but whoever asks for the name is told of the built-in attribute as before. -/
theorem names_tell_attributes [Scalar α] (given : Set String) :
    (∀ attrs : NodeAttrs α, attrs.Gathered given →
      (∀ name, attrs.names.count name = (attrs.has name).toNat + (attrs.hides name).toNat) ∧
      (attrs.isEmpty ↔ ∀ name, ¬ attrs.has name ∧ ¬ attrs.hides name) ∧
      (∀ name, attrs.hides name → name ∈ given ∧ name ∈ NodeAttrs.builtInNames) ∧
      (attrs.NamesPresent ↔ ∀ name, ¬ attrs.hides name) ∧
      ((∀ name ∈ given, name ∉ NodeAttrs.builtInNames) → attrs.NamesPresent)) ∧
    ∀ g : CallGraph α, RankedUnder given g →
      g.Gathers given ∧
      (∀ name, (name ∈ given → name ∉ NodeAttrs.builtInNames) → g.callsWith name =
        (g.nodes.filter fun node => node.attrs.names.contains name).map (·.call)) ∧
      ∀ params, ∀ name ∈ NodeAttrs.builtInNames,
        (∀ node ∈ (g.assignRanks params name).nodes, node.attrs.hides name) ∧
        (g.assignRanks params name).callsWith name = g.callsWith name := by
  constructor
  · intro attrs h
    refine ⟨attrs.count_names, NodeAttrs.isEmpty_iff, fun name => h.mem_of_hides,
      NodeAttrs.namesPresent_iff, fun avoided => NodeAttrs.namesPresent_iff.2 ?_⟩
    intro name hhides
    obtain ⟨hgiven, hbuiltIn⟩ := h.mem_of_hides hhides
    exact avoided name hgiven hbuiltIn
  · intro g h
    refine ⟨h.gathers, fun name avoided => ?_, fun params name hname => ⟨?_, ?_⟩⟩
    · apply callsWith_eq_of_not_hides
      intro node hnode hhides
      obtain ⟨hgiven, hbuiltIn⟩ := (h.gathers node hnode).mem_of_hides hhides
      exact avoided hgiven hbuiltIn
    · intro node hnode
      obtain ⟨old, -, rank, rfl⟩ := mem_nodes_assignRanks hnode
      exact NodeAttrs.hides_setScore hname old.attrs rank
    · exact g.callsWith_assignRanks params hname name

theorem rankedUnder_mutualCalls (given : Set String) : RankedUnder given mutualCalls :=
  have hload : (Format.cflow false).load [] mutualListing {} = .ok mutualCalls :=
    load_mutualListing
  .load hload

theorem rankedUnder_profiledCalls (given : Set String) : RankedUnder given profiledCalls :=
  have hload : Format.gprof.load [] (.text profiledReport) {} = .ok profiledCalls :=
    load_profiledReport
  .load hload

/-- A function with ranks as `entry` is no entry point and has no other attribute, but it lists one.
With ranks as `tested`, a tested function lists this twice. -/
theorem names_of_misnamedRanks :
    RankedUnder {"entry"} (mutualCalls.assignRanks RankParams.standard "entry") ∧
    (∃ node ∈ (mutualCalls.assignRanks RankParams.standard "entry").nodes,
      node.attrs.names = ["entry"] ∧ ∀ name, node.attrs.has name = false) ∧
    (mutualCalls.assignRanks RankParams.standard "entry").callsWith "entry" = [] ∧
    RankedUnder {"tested"} (profiledCalls.assignRanks RankParams.standard "tested") ∧
    ∃ node ∈ (profiledCalls.assignRanks RankParams.standard "tested").nodes,
      node.attrs.names = ["tested", "frequency", "tested"] := by
  have hlisted : ∃ node ∈ (mutualCalls.assignRanks RankParams.standard "entry").nodes,
      node.attrs.names = ["entry"] ∧ node.attrs.has "entry" = false := by decide +kernel
  obtain ⟨node, hnode, hnames, hentry⟩ := hlisted
  refine ⟨(rankedUnder_mutualCalls _).assignRanks _ rfl, ⟨node, hnode, hnames, fun name => ?_⟩,
    by decide +kernel, (rankedUnder_profiledCalls _).assignRanks _ rfl, by decide +kernel⟩
  rw [Bool.eq_false_iff]
  intro hhas
  have hname : name ∈ node.attrs.names := NodeAttrs.mem_names.2 (.inl hhas)
  rw [hnames, List.mem_singleton] at hname
  rw [hname, hentry] at hhas
  cases hhas

/-- Names that no built-in attribute has. -/
def rankNames : Set String := {"page_rank", "centrality"}

theorem notMem_builtInNames_of_rankNames :
    ∀ name ∈ rankNames, name ∉ NodeAttrs.builtInNames := by
  rintro name (rfl | rfl)
  · decide
  · decide

/-- Ranks of a listing and of a profile, each under a name of its own. -/
def rankedMerge : CallGraph Rat :=
  (mutualCalls.assignRanks RankParams.standard "page_rank").merge
    (profiledCalls.assignRanks RankParams.standard "centrality")

theorem names_of_rankedMerge :
    RankedUnder rankNames rankedMerge ∧ (∀ name ∈ rankNames, name ∉ NodeAttrs.builtInNames) ∧
    (rankedMerge.nodes.map fun node => node.attrs.names) =
      [["tested", "frequency", "centrality", "page_rank"],
        ["tested", "frequency", "centrality", "page_rank"]] ∧
    (∀ node ∈ rankedMerge.nodes, node.attrs.Gathered rankNames ∧ node.attrs.NamesPresent) ∧
    (rankedMerge.callsWith "centrality").map (·.name) = ["f", "g"] := by
  have hranked : RankedUnder rankNames rankedMerge :=
    ((rankedUnder_mutualCalls _).assignRanks _ (.inl rfl)).merge
      ((rankedUnder_profiledCalls _).assignRanks _ (.inr rfl))
  have avoided := notMem_builtInNames_of_rankNames
  obtain ⟨hattrs, hgraphs⟩ := names_tell_attributes (α := Rat) rankNames
  obtain ⟨hgathers, hcalls, -⟩ := hgraphs rankedMerge hranked
  refine ⟨hranked, avoided, by decide +kernel, fun node hnode => ⟨hgathers node hnode, ?_⟩, ?_⟩
  · obtain ⟨-, -, -, -, hpresent⟩ := hattrs node.attrs (hgathers node hnode)
    exact hpresent avoided
  · rw [hcalls "centrality" (avoided "centrality")]
    decide +kernel

end CallGraph

end AttackSurface
