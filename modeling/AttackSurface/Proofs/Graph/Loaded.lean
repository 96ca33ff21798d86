import AttackSurface.Proofs.Formats
import AttackSurface.Proofs.Graph.Built
import AttackSurface.Proofs.Graph.Events

/-! Graphs of listings. A listing that can be loaded gives the graph of a trace, event by event,
whatever tool it comes from; so every loaded graph is built by the operations. -/
namespace AttackSurface

variable {α : Type} {files : FileTree} {source : Source} {options : Options}

/-! ## Loads -/

theorem Format.exists_trace_of_load (format : Format) {g : CallGraph α}
    (h : format.load files source options = .ok g) :
    ∃ trace, g = .ofTrace source.describe format.producer options trace := by
  obtain ⟨lines, -, rfl⟩ := exists_lines_of_load h
  exact ⟨format.trace lines, rfl⟩

theorem Cflow.exists_trace_of_load {reverse : Bool} {g : CallGraph α}
    (h : load files source reverse options = .ok g) :
    ∃ trace, g = .ofTrace source.describe .cflow options trace :=
  Format.exists_trace_of_load (Format.cflow reverse) h

theorem JavaCalls.exists_trace_of_load {packages : List String} {g : CallGraph α}
    (h : load files source packages options = .ok g) :
    ∃ trace, g = .ofTrace source.describe .javacg options trace :=
  Format.exists_trace_of_load (Format.javaCalls packages) h

namespace Gprof

theorem exists_trace_of_load {g : CallGraph α} (h : load files source options = .ok g) :
    ∃ trace, g = .ofTrace source.describe .gprof options trace :=
  Format.exists_trace_of_load Format.gprof h

/-- What every profile that arrives keeps holds of the aggregate. -/
theorem aggregate_induction {P : CallGraph α → Prop} {origin : String} {g : CallGraph α}
    {arrivals : List (Except LoadError (CallGraph α))} (start : P (.empty origin))
    (add : ∀ aggregate profile, P aggregate → .ok profile ∈ arrivals →
      P (addProfile aggregate profile))
    (h : aggregate origin arrivals = .ok g) : P g := by
  have hfold (before : CallGraph α) (hbefore : P before)
      (hall : arrivals.foldlM (fun g arrival => arrival.map (addProfile g)) before = .ok g) :
      P g := by
    clear h
    induction arrivals generalizing before with
    | nil =>
      cases hall
      exact hbefore
    | cons arrival rest ih =>
      cases arrival with
      | error e => cases hall
      | ok profile =>
        refine ih (fun aggregate later hg hlater => ?_) (addProfile before profile) ?_ hall
        · exact add aggregate later hg (List.mem_cons_of_mem _ hlater)
        · exact add before profile hbefore (List.mem_cons_self ..)
  exact hfold (.empty origin) start h

/-- What every listed profile keeps holds of the aggregate of reports. -/
theorem profiles_induction {P : CallGraph α → Prop} {origin : String} {g : CallGraph α}
    {arrivals : List (Except LoadError (CallGraph α))} {paths : List String}
    (any_order : arrivals.Perm (paths.map fun path => load files (.path path) options))
    (start : P (.empty origin))
    (add : ∀ aggregate source trace, P aggregate →
      P (addProfile aggregate (.ofTrace source .gprof options trace)))
    (h : aggregate origin arrivals = .ok g) : P g := by
  refine aggregate_induction start (fun aggregate profile hg hprofile => ?_) h
  obtain ⟨path, -, hload⟩ := List.mem_map.1 (any_order.mem_iff.1 hprofile)
  obtain ⟨trace, rfl⟩ := exists_trace_of_load hload
  exact add aggregate _ trace hg

end Gprof

namespace CallGraph

/-- The graphs of listings, and what the operations make of them. -/
inductive Loaded [Scalar α] : CallGraph α → Prop
  | cflow {files source reverse options g} (h : Cflow.load files source reverse options = .ok g) :
    Loaded g
  | gprof {files source options g} (h : Gprof.load files source options = .ok g) : Loaded g
  | javaCalls {files source packages options g}
    (h : JavaCalls.load files source packages options = .ok g) : Loaded g
  /-- Several reports in one graph, in any order of arrival. -/
  | profiles {files options origin arrivals g} (paths : List String)
    (any_order : arrivals.Perm (paths.map fun path => Gprof.load files (.path path) options))
    (h : Gprof.aggregate origin arrivals = .ok g) : Loaded g
  | reconcile {g reference} (h : Loaded g) (hr : Loaded reference) : Loaded (g.reconcile reference)
  | union {g other} (h : Loaded g) (ho : Loaded other) : Loaded (g.union other)
  | merge {g other} (h : Loaded g) (ho : Loaded other) : Loaded (g.merge other)
  | fragmentize {g} (h : Loaded g) : Loaded g.fragmentize
  | assignWeights {g} (h : Loaded g) (weights : Weights) : Loaded (g.assignWeights weights)
  | assignRanks {g} (h : Loaded g) (params : RankParams α) (name : String) :
    Loaded (g.assignRanks params name)

/-! ## Loaded graphs are built -/

section

variable [Scalar α] {g : CallGraph α}

theorem Built.record (h : Built g) (producer : Producer) (options : Options) (event : Event) :
    Built (g.record producer options event) := by
  apply record_induction h
  · intro g call attrs hg
    exact hg.addNode call attrs
  · intro g caller callee hg
    exact (hg.addEdge _ _ _).addEdge _ _ _

theorem Built.ofTrace (origin : String) (producer : Producer) (options : Options) (trace : Trace) :
    Built (ofTrace origin producer options trace : CallGraph α) := by
  have hevents : Built (ofEvents origin producer options trace.events : CallGraph α) :=
    List.foldlRecOn _ _ (.empty origin) fun _ hg event _ => hg.record producer options event
  exact hevents.withOrigin _ trace.errors

theorem Loaded.built (h : Loaded g) : Built g := by
  induction h with
  | cflow h =>
    obtain ⟨trace, rfl⟩ := Cflow.exists_trace_of_load h
    exact .ofTrace ..
  | gprof h =>
    obtain ⟨trace, rfl⟩ := Gprof.exists_trace_of_load h
    exact .ofTrace ..
  | javaCalls h =>
    obtain ⟨trace, rfl⟩ := JavaCalls.exists_trace_of_load h
    exact .ofTrace ..
  | profiles paths any_order h =>
    exact Gprof.profiles_induction any_order (.empty _)
      (fun _ _ _ hg => hg.addProfile (.ofTrace ..)) h
  | reconcile _ _ ih ihr => exact ih.reconcile ihr
  | union _ _ ih iho => exact ih.union iho
  | merge _ _ ih iho => exact ih.merge iho
  | fragmentize _ ih => exact ih.fragmentize
  | assignWeights _ weights ih => exact ih.assignWeights weights
  | assignRanks _ params name ih => exact ih.assignRanks params name

end

end CallGraph

end AttackSurface
