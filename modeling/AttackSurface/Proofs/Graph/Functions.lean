import AttackSurface.Proofs.Gprof.Aggregate
import AttackSurface.Proofs.Graph.Collapse
import AttackSurface.Proofs.Graph.Pairing
import Mathlib.Data.Set.List

/-! One node per function. An identity is a name and a signature with a space between, and nothing
is escaped. Still no two C functions fall together: whichever tool printed the line that a function
was read from, its name has no space, so that the identity can be taken apart again. -/
namespace AttackSurface

/-- All that tells two functions apart. -/
def Call.label (call : Call) : String × String := (call.name, call.signature)

/-- The call was read from some line of a C listing. -/
inductive Call.FromLine : Call → Prop
  | cflow {text line} (h : Cflow.readLine text = .ok line) : FromLine line.call
  | gprof {text call} (h : Gprof.readLine text = .ok call) : FromLine call

variable {α : Type} {a b call : Call} {trace : Trace} {producer : Producer} {options : Options}
  {origin : String}

theorem Call.FromLine.isPlain (h : call.FromLine) : call.IsPlain := by
  cases h with
  | cflow h =>
    obtain ⟨hfunction, hname⟩ := Cflow.readLine_call h
    exact ⟨hfunction.granularity, fun hspace => absurd (hname _ hspace) (by decide)⟩
  | gprof h =>
    obtain ⟨hfunction, hname⟩ := Gprof.readLine_call h
    exact ⟨hfunction.granularity, fun hspace => absurd (hname _ hspace) (by decide)⟩

theorem Call.IsPlain.identity_eq_iff (ha : a.IsPlain) (hb : b.IsPlain) :
    a.identity = b.identity ↔ a.label = b.label := by
  constructor
  · intro h
    obtain ⟨hname, hsignature⟩ := ha.eq_of_identity hb h
    exact Prod.ext hname hsignature
  · intro h
    obtain ⟨hname, hsignature⟩ := Prod.mk.inj h
    simp only [identity, ha.function, hb.function, hname, hsignature]

theorem Call.exists_identity_eq (identity : String) : ∃ call : Call, call.identity = identity :=
  ⟨⟨identity, "", .c, .function⟩, rfl⟩

/-- The call is of the program, and the trace tells of it: on its own, as a caller, or as called by
another call of the program. -/
def Trace.TellsOf (trace : Trace) (call : Call) : Prop :=
  call.inLibrary = false ∧ (.node call ∈ trace.events ∨
    (∃ callee, .call call callee ∈ trace.events) ∨
    ∃ caller, caller.inLibrary = false ∧ .call caller call ∈ trace.events)

theorem Trace.tellsOf_iff : trace.TellsOf call ↔
    ∃ event ∈ trace.events, ∃ told ∈ event.nodesTold (α := α) producer options.forFunctions,
      told.1 = call := by
  simp only [Event.mem_nodesTold, Options.place?_forFunctions, Option.isSome_iff_exists]
  constructor
  · rintro ⟨hprogram, hevent | ⟨callee, hevent⟩ | ⟨caller, hcaller, hevent⟩⟩
    · exact ⟨_, hevent, (call, _), .inl ⟨call, rfl, ⟨hprogram, rfl⟩, rfl⟩, rfl⟩
    · exact ⟨_, hevent, (call, _), .inr ⟨call, callee, rfl, .inl ⟨⟨hprogram, rfl⟩, rfl⟩⟩, rfl⟩
    · exact ⟨_, hevent, (call, _),
        .inr ⟨caller, call, rfl, .inr ⟨⟨caller, hcaller, rfl⟩, ⟨hprogram, rfl⟩, rfl⟩⟩, rfl⟩
  · rintro ⟨_, hevent, told, ⟨seen, rfl, ⟨hprogram, heq⟩, -⟩ |
      ⟨caller, callee, rfl, ⟨⟨hprogram, heq⟩, -⟩ | ⟨⟨_, hcaller, -⟩, ⟨hprogram, heq⟩, -⟩⟩, rfl⟩
    · exact heq ▸ ⟨hprogram, .inl hevent⟩
    · exact heq ▸ ⟨hprogram, .inr (.inl ⟨callee, hevent⟩)⟩
    · exact heq ▸ ⟨hprogram, .inr (.inr ⟨caller, hcaller, hevent⟩)⟩

theorem Trace.TellsOf.mem_calls (h : trace.TellsOf call) : call ∈ trace.calls := by
  rw [Trace.mem_calls]
  rcases h.2 with hevent | ⟨callee, hevent⟩ | ⟨caller, -, hevent⟩
  · exact ⟨_, hevent, List.mem_cons_self ..⟩
  · exact ⟨_, hevent, List.mem_cons_self ..⟩
  · exact ⟨_, hevent, List.mem_cons_of_mem _ (List.mem_singleton_self _)⟩

theorem Options.eq_forFunctions (h : options.granularity = .function) :
    options = options.forFunctions := by
  rw [forFunctions, ← h]

namespace CallGraph

variable {g : CallGraph α}

def labels (g : CallGraph α) : List (String × String) := g.calls.map Call.label

/-- The nodes of the graph are the functions that the calls stand for: one node for each name and
signature. -/
structure HasOneNodeEach (g : CallGraph α) (calls : Call → Prop) : Prop where
  nodup : g.labels.Nodup
  mem_iff : ∀ label, label ∈ g.labels ↔ ∃ call, calls call ∧ call.label = label

theorem HasOneNodeEach.ofIdentities (h : g.WellFormed) (plain : g.AllCalls Call.IsPlain)
    {calls : Call → Prop} (hcalls : ∀ call, calls call → call.IsPlain)
    (same : ∀ identity, identity ∈ g.identities ↔ ∃ call, calls call ∧ call.identity = identity) :
    g.HasOneNodeEach calls where
  nodup := by
    refine List.Nodup.map_on (fun a ha b hb hlabel => ?_) h.nodup_identities.of_map
    exact h.eq_of_mem_calls ha hb (((plain a ha).identity_eq_iff (plain b hb)).2 hlabel)
  mem_iff label := by
    constructor
    · intro hlabel
      obtain ⟨u, hu, rfl⟩ := List.mem_map.1 hlabel
      obtain ⟨call, hcall, hi⟩ := (same u.identity).1 (List.mem_map_of_mem hu)
      exact ⟨call, hcall, ((hcalls call hcall).identity_eq_iff (plain u hu)).1 hi⟩
    · rintro ⟨call, hcall, rfl⟩
      obtain ⟨u, hu, hi⟩ := List.mem_map.1 ((same call.identity).2 ⟨call, hcall, rfl⟩)
      exact List.mem_map.2 ⟨u, hu, ((plain u hu).identity_eq_iff (hcalls call hcall)).1 hi⟩

/-! ## Loaded graphs -/

theorem mem_identities_ofTrace {identity : String} :
    identity ∈ (ofTrace origin producer options.forFunctions trace : CallGraph α).identities ↔
      ∃ call, trace.TellsOf call ∧ call.identity = identity := by
  have hwf : (ofTrace origin producer options.forFunctions trace : CallGraph α).WellFormed :=
    wellFormed_ofEvents.withOrigin ..
  obtain ⟨u, rfl⟩ := Call.exists_identity_eq identity
  have hshown : (ofEvents origin producer options.forFunctions trace.events : CallGraph α).nodeShows
      .present u ↔ _ := nodeShows_ofEvents
  have htells (call : Call) : trace.TellsOf call ↔ ∃ event ∈ trace.events,
      ∃ told ∈ event.nodesTold (α := α) producer options.forFunctions, told.1 = call :=
    Trace.tellsOf_iff
  rw [← hwf.nodeShows_present]
  refine hshown.trans ?_
  simp only [htells]
  constructor
  · rintro ⟨event, hevent, told, htold, hi, -⟩
    exact ⟨told.1, ⟨event, hevent, told, htold, rfl⟩, hi⟩
  · rintro ⟨_, ⟨event, hevent, told, htold, rfl⟩, hi⟩
    exact ⟨event, hevent, told, htold, hi, rfl⟩

end CallGraph

namespace Format

variable {format : Format} {lines : List String} {files : FileTree} {source : Source}
  {g : CallGraph α}

theorem all_fromLine (hc : format.environment = .c) (lines : List String) :
    (format.trace lines).All Call.FromLine := by
  cases format with
  | cflow reverse => exact Cflow.all_trace (fun _ _ h => .cflow h) reverse lines
  | gprof => exact Gprof.all_trace (fun _ _ h => .gprof h) lines
  | javaCalls packages => cases hc

theorem isPlain_of_tellsOf (hc : format.environment = .c)
    (h : (format.trace lines).TellsOf call) : call.IsPlain := by
  obtain ⟨event, hevent, hcall⟩ := Trace.mem_calls.1 h.mem_calls
  exact (all_fromLine hc lines event hevent call hcall).isPlain

theorem allCalls_isPlain (hc : format.environment = .c)
    (hfunctions : options.granularity = .function)
    (h : format.load files source options = .ok g) : g.AllCalls Call.IsPlain := by
  obtain ⟨lines, -, rfl⟩ := exists_lines_of_load h
  refine .ofTrace fun event hevent call hcall place hplace => ?_
  rw [Options.eq_forFunctions hfunctions] at hplace
  obtain ⟨-, rfl⟩ := Options.place?_forFunctions.1 hplace
  exact (all_fromLine hc lines event hevent call hcall).isPlain

theorem mem_identities_of_listing (hfunctions : options.granularity = .function)
    (hread : format.listing files source = .ok lines)
    (h : format.load files source options = .ok g) {identity : String} :
    identity ∈ g.identities ↔
      ∃ call, (format.trace lines).TellsOf call ∧ call.identity = identity := by
  rw [load_of_listing hread, Options.eq_forFunctions hfunctions] at h
  cases h
  exact CallGraph.mem_identities_ofTrace

theorem hasOneNodeEach_of_load (hc : format.environment = .c)
    (hfunctions : options.granularity = .function)
    (h : format.load files source options = .ok g) :
    ∃ lines, format.listing files source = .ok lines ∧
      g.HasOneNodeEach (format.trace lines).TellsOf := by
  obtain ⟨lines, hread, hg⟩ := exists_lines_of_load h
  have hwf : g.WellFormed := hg ▸ CallGraph.wellFormed_ofEvents.withOrigin ..
  refine ⟨lines, hread, .ofIdentities hwf (allCalls_isPlain hc hfunctions h) ?_ ?_⟩
  · exact fun call hcall => isPlain_of_tellsOf hc hcall
  · exact fun identity => mem_identities_of_listing hfunctions hread h

end Format

namespace Gprof

variable {files : FileTree} {paths : List String} {g : CallGraph α}
  {arrivals : List (Except LoadError (CallGraph α))}

/-- Some report tells of the call. -/
def Reported (files : FileTree) (paths : List String) (call : Call) : Prop :=
  ∃ path ∈ paths, ∃ lines, listing files (.path path) = .ok lines ∧
    (Gprof.trace lines).TellsOf call

/-- An aggregate holds just what the profiles hold that arrived. -/
theorem aggregates_of_aggregate (once : ∀ profile, .ok profile ∈ arrivals → profile.SeenOnce)
    (h : aggregate origin arrivals = .ok g) :
    ∃ arrived, arrivals = arrived.map .ok ∧ g.Aggregates arrived := by
  have hall : ∀ arrival ∈ arrivals, arrival.isOk := isOk_aggregate.1 (by rw [h]; rfl)
  obtain ⟨arrived, rfl⟩ : arrivals ∈ Set.range (List.map Except.ok) := by
    rw [Set.range_list_map]
    intro arrival harrival
    cases arrival with
    | error e => exact absurd (hall _ harrival) Bool.false_ne_true
    | ok profile => exact ⟨profile, rfl⟩
  rw [aggregate_map_ok] at h
  cases h
  have hadded := (CallGraph.Aggregates.empty origin).addProfiles fun profile hprofile =>
    once profile (List.mem_map_of_mem hprofile)
  exact ⟨arrived, rfl, by simpa using hadded⟩

theorem hasOneNodeEach_of_aggregate (hfunctions : options.granularity = .function)
    (any_order : arrivals.Perm (paths.map fun path => load files (.path path) options))
    (h : aggregate origin arrivals = .ok g) : g.HasOneNodeEach (Reported files paths) := by
  have hloaded {profile : CallGraph α} (hprofile : .ok profile ∈ arrivals) :
      ∃ path ∈ paths, Format.gprof.load files (.path path) options = .ok profile :=
    List.mem_map.1 (any_order.mem_iff.1 hprofile)
  have hplain {profile : CallGraph α} (hprofile : .ok profile ∈ arrivals) :
      profile.AllCalls Call.IsPlain := by
    obtain ⟨path, -, hload⟩ := hloaded hprofile
    exact Format.allCalls_isPlain rfl hfunctions hload
  obtain ⟨arrived, rfl, haggregates⟩ := aggregates_of_aggregate (fun profile hprofile => by
    obtain ⟨path, -, hload⟩ := hloaded hprofile
    exact seenOnce_of_load hload) h
  refine .ofIdentities haggregates.wellFormed ?_ ?_ fun identity => ?_
  · refine aggregate_induction (P := CallGraph.AllCalls Call.IsPlain) (.empty origin) ?_ h
    exact fun _ profile hg hprofile => hg.unionWith (hplain hprofile) _
  · rintro call ⟨path, -, lines, -, hcall⟩
    exact Format.isPlain_of_tellsOf (show Format.gprof.environment = .c from rfl) hcall
  · obtain ⟨u, rfl⟩ := Call.exists_identity_eq identity
    rw [← haggregates.wellFormed.isSome_attrs?, haggregates.present]
    constructor
    · rintro ⟨profile, hprofile, hu⟩
      obtain ⟨path, hpath, hload⟩ := hloaded (List.mem_map_of_mem hprofile)
      obtain ⟨lines, hread, -⟩ := Format.exists_lines_of_load hload
      rw [(seenOnce_of_load hload).wellFormed.isSome_attrs?,
        Format.mem_identities_of_listing hfunctions hread hload] at hu
      obtain ⟨call, hcall, hi⟩ := hu
      exact ⟨call, ⟨path, hpath, lines, hread, hcall⟩, hi⟩
    · rintro ⟨call, ⟨path, hpath, lines, hread, hcall⟩, hi⟩
      have hread' : Format.gprof.listing files (.path path) = .ok lines := hread
      have hload : Format.gprof.load (α := α) files (.path path) options = .ok _ :=
        Format.load_of_listing hread' options
      obtain ⟨profile, hprofile, heq⟩ := List.mem_map.1
        (any_order.mem_iff.2 (List.mem_map.2 ⟨path, hpath, hload⟩))
      cases heq
      refine ⟨_, hprofile, ?_⟩
      rw [(seenOnce_of_load hload).wellFormed.isSome_attrs?,
        Format.mem_identities_of_listing hfunctions hread' hload]
      exact ⟨call, hcall, hi⟩

end Gprof

/-! ## One node per function -/

/-- Two C functions have one identity exactly if they have one name and one signature, whatever
lines of whatever listings they were read from. So the graph of a listing, and that of several
profiles in any order of arrival, has one node for each name and signature. -/
theorem one_node_per_function :
    (∀ a b : Call, a.FromLine → b.FromLine →
      (a.identity = b.identity ↔ a.name = b.name ∧ a.signature = b.signature)) ∧
    (∀ (format : Format) (files : FileTree) (source : Source) (options : Options)
      (g : CallGraph α), format.environment = .c → options.granularity = .function →
      format.load files source options = .ok g →
      ∃ lines, format.listing files source = .ok lines ∧
        g.HasOneNodeEach (format.trace lines).TellsOf) ∧
    ∀ (files : FileTree) (paths : List String) (options : Options) (origin : String)
      (arrivals : List (Except LoadError (CallGraph α))) (g : CallGraph α),
      options.granularity = .function →
      arrivals.Perm (paths.map fun path => Gprof.load files (.path path) options) →
      Gprof.aggregate origin arrivals = .ok g → g.HasOneNodeEach (Gprof.Reported files paths) := by
  refine ⟨fun a b ha hb => ?_, fun _ _ _ _ _ hc hfunctions h => ?_,
    fun _ _ _ _ _ _ hfunctions any_order h => ?_⟩
  · rw [ha.isPlain.identity_eq_iff hb.isPlain]
    exact Prod.ext_iff
  · exact Format.hasOneNodeEach_of_load hc hfunctions h
  · exact Gprof.hasOneNodeEach_of_aggregate hfunctions any_order h

theorem fromLine_blankPath : (⟨"f", "g h.c", .c, .function⟩ : Call).FromLine := by
  have hread : Cflow.readLine "f() <int f () at g h.c:3>" =
      .ok ⟨⟨"f", "g h.c", .c, .function⟩, 0, false⟩ := by
    decide +kernel
  exact .cflow hread

theorem fromLine_noPath : (⟨"f", "", .c, .function⟩ : Call).FromLine := by
  have hread : Gprof.readLine "                0.00    0.00       1/1           f [2]" =
      .ok ⟨"f", "", .c, .function⟩ := by
    decide +kernel
  exact .gprof hread

theorem exists_loadAll_reports :
    ∃ g : CallGraph Rat, Gprof.loadAll Gprof.reports ["b", "a"] = .ok g := by
  unfold Gprof.loadAll
  simp only [List.map_cons, List.map_nil, Gprof.load_of_read Gprof.read_reports.1 rfl,
    Gprof.load_of_read Gprof.read_reports.2 rfl]
  exact ⟨_, rfl⟩

theorem reported_work : Gprof.Reported Gprof.reports ["b", "a"] Gprof.workCall := by
  refine ⟨"a", by decide, Gprof.workLines, ?_, by decide, .inr (.inr ⟨Gprof.mainCall, ?_⟩)⟩
  · rw [Gprof.listing, Gprof.read_reports.1]
    rfl
  · rw [Gprof.trace_reports.1]
    decide

theorem nodes_of_mutualListing :
    (⟨"f", "g h.c", .c, .function⟩ : Call).identity ≠ (⟨"f", "", .c, .function⟩ : Call).identity ∧
    Cflow.load [] CallGraph.mutualListing false = .ok CallGraph.mutualCalls ∧
    CallGraph.mutualCalls.labels.Nodup ∧ ("g", "./a.c") ∈ CallGraph.mutualCalls.labels ∧
    ∃ g : CallGraph Rat, Gprof.loadAll Gprof.reports ["b", "a"] = .ok g ∧ g.labels.Nodup ∧
      ("work", "./a.c") ∈ g.labels := by
  obtain ⟨hidentity, hload, haggregate⟩ := one_node_per_function (α := Rat)
  have hapart : (⟨"f", "g h.c", .c, .function⟩ : Call).identity ≠
      (⟨"f", "", .c, .function⟩ : Call).identity := by
    rw [Ne, hidentity _ _ fromLine_blankPath fromLine_noPath]
    decide
  obtain ⟨lines, hread, hmutual⟩ :=
    hload (.cflow false) [] _ {} _ rfl rfl CallGraph.load_mutualListing
  have htold : ((Format.cflow false).trace lines).TellsOf ⟨"g", "./a.c", .c, .function⟩ := by
    cases hread
    exact ⟨by decide, .inr (.inl ⟨⟨"f", "./a.c", .c, .function⟩, by decide +kernel⟩)⟩
  obtain ⟨g, hg⟩ := exists_loadAll_reports
  have hprofiles := haggregate Gprof.reports ["b", "a"] {} _ _ g rfl (.refl _) hg
  exact ⟨hapart, CallGraph.load_mutualListing, hmutual.nodup,
    (hmutual.mem_iff _).2 ⟨_, htold, rfl⟩, g, hg, hprofiles.nodup,
    (hprofiles.mem_iff _).2 ⟨_, reported_work, rfl⟩⟩

end AttackSurface
