import AttackSurface.Proofs.Graph.Calls
import AttackSurface.Proofs.Graph.Quotient

/-! Files as collapsed functions. A graph of files is made event by event, not from the graph of the
functions. It shows of a file what the functions of that file show, as long as no two functions of
different files have one identity. -/
namespace AttackSurface

variable {α : Type} {environment : Environment} {producer : Producer} {options : Options}
  {event : Event} {call place : Call} {trace : Trace}

/-! ## What is recorded -/

def Trace.calls (trace : Trace) : List Call := trace.events.flatMap Event.calls

/-- The identity of a recorded call tells its file or class. -/
def Trace.Distinct (trace : Trace) : Prop :=
  ∀ a ∈ trace.calls, ∀ b ∈ trace.calls, a.identity = b.identity → a.signature = b.signature

theorem Trace.mem_calls : call ∈ trace.calls ↔ ∃ event ∈ trace.events, call ∈ event.calls :=
  List.mem_flatMap

/-- The call occurs alone, calls, or is called by a function of the program with a known file. -/
def Trace.SeesApart (trace : Trace) (call : Call) : Prop :=
  .node call ∈ trace.events ∨ (∃ callee, .call call callee ∈ trace.events) ∨
    ∃ caller, .call caller call ∈ trace.events ∧ caller.inLibrary = false ∧ caller.signature ≠ ""

/-- Every function of a file that is called by a function of the program without a file is seen
apart from that, too. -/
def Trace.SeesFile (trace : Trace) (path : String) : Prop :=
  ∀ caller callee, .call caller callee ∈ trace.events → caller.inLibrary = false →
    caller.signature = "" → callee.signature = path → trace.SeesApart callee

/-- The names of C functions have no spaces, so that no two of them fall together. -/
theorem Format.distinct_of_c {format : Format} (hc : format.environment = .c)
    (lines : List String) : (format.trace lines).Distinct := by
  have hplain (call : Call) (hcall : call ∈ (format.trace lines).calls) : call.IsPlain := by
    obtain ⟨event, hevent, hcall⟩ := Trace.mem_calls.1 hcall
    exact ⟨(format.all_isFunctionOn lines event hevent call hcall).granularity,
      format.all_names hc lines event hevent call hcall⟩
  exact fun a ha b hb hi => ((hplain a ha).eq_of_identity (hplain b hb) hi).2

/-! ## One event at both granularities -/

theorem Call.IsFunctionOn.file?_eq_some (h : call.IsFunctionOn environment) :
    call.file? = some place ↔ call.signature ≠ "" ∧ .ofFile call.signature environment = place := by
  simp [file?, h.granularity, h.environment]

namespace Options

def forFunctions (options : Options) : Options := { options with granularity := .function }

def forFiles (options : Options) : Options := { options with granularity := .file }

theorem place?_forFunctions : options.forFunctions.place? call = some place ↔
    call.inLibrary = false ∧ call = place := by
  simp [place?, forFunctions, Call.at?]

theorem place?_forFiles (options : Options) (call : Call) :
    options.forFiles.place? call = (options.forFunctions.place? call).bind Call.file? := by
  simp only [place?, forFiles, forFunctions]
  split <;> rfl

end Options

theorem observed_forFiles (call : Call) :
    (observed producer options.forFiles call : NodeAttrs α) =
      observed producer options.forFunctions call := rfl

theorem observedCaller_forFiles (caller callee : Call) :
    (observedCaller producer options.forFiles caller callee : NodeAttrs α) =
      observedCaller producer options.forFunctions caller callee := rfl

/-- What is observed of a caller is all that is observed of a call, and more. -/
theorem shows_observedCaller {caller callee : Call} {sign : NodeSign}
    (h : (observed producer options caller : NodeAttrs α).shows sign) :
    (observedCaller producer options caller callee : NodeAttrs α).shows sign := by
  cases sign with
  | present => rfl
  | seenBy profiles => exact h
  | mark mark => cases mark <;> first | exact h | cases h

namespace Event

/-- The event is no call by a function without a file. -/
def isLocated : Event → Bool
  | .node _ => true
  | .call caller _ => caller.file?.isSome

def collapseNode (told : Call × NodeAttrs α) : Option (Call × NodeAttrs α) :=
  told.1.file?.map fun file => (file, told.2)

def collapseLink (link : Call × Call × EdgeAttrs) : Option (Call × Call × EdgeAttrs) :=
  link.1.file?.bind fun source => link.2.1.file?.map fun target => (source, target, link.2.2)

theorem nodesTold_forFiles (event : Event) : event.nodesTold (α := α) producer options.forFiles =
    if event.isLocated then (event.nodesTold producer options.forFunctions).filterMap collapseNode
    else [] := by
  cases event with
  | node seen =>
    simp only [nodesTold, isLocated, Options.place?_forFiles, observed_forFiles, if_true]
    cases options.forFunctions.place? seen with
    | none => rfl
    | some place => cases hfile : place.file? <;> simp [collapseNode, hfile]
  | call caller callee =>
    have hlocated : (Event.call caller callee).isLocated = caller.file?.isSome := rfl
    rw [hlocated]
    simp only [nodesTold, Options.place?_forFiles, observed_forFiles, observedCaller_forFiles]
    cases hcaller : options.forFunctions.place? caller with
    | none => exact (ite_self []).symm
    | some place =>
      obtain ⟨-, rfl⟩ := Options.place?_forFunctions.1 hcaller
      cases hfile : caller.file? with
      | none => simp [hfile]
      | some file =>
        cases options.forFunctions.place? callee with
        | none => simp [collapseNode, hfile]
        | some target => cases htarget : target.file? <;> simp [collapseNode, hfile, htarget]

theorem linksTold_forFiles (event : Event) : event.linksTold producer options.forFiles =
    (event.linksTold producer options.forFunctions).filterMap collapseLink := by
  cases event with
  | node seen => rfl
  | call caller callee =>
    simp only [linksTold, Options.place?_forFiles]
    cases options.forFunctions.place? caller with
    | none => rfl
    | some source =>
      cases options.forFunctions.place? callee with
      | none => cases hsource : source.file? <;> simp [hsource]
      | some target => cases hsource : source.file? <;> cases htarget : target.file? <;>
          simp [collapseLink, hsource, htarget]

theorem mem_calls_of_nodesTold {told : Call × NodeAttrs α}
    (h : told ∈ event.nodesTold producer options.forFunctions) : told.1 ∈ event.calls := by
  rcases mem_nodesTold.1 h with ⟨seen, rfl, hplace, -⟩ |
    ⟨caller, callee, rfl, ⟨hplace, -⟩ | ⟨-, hplace, -⟩⟩
  · simp [calls, (Options.place?_forFunctions.1 hplace).2]
  · simp [calls, (Options.place?_forFunctions.1 hplace).2]
  · simp [calls, (Options.place?_forFunctions.1 hplace).2]

theorem mem_nodesTold_forFiles (h : call.IsFunctionOn environment) (hsigned : call.signature ≠ "")
    (hlocated : event.isLocated) {attrs : NodeAttrs α}
    (htold : (call, attrs) ∈ event.nodesTold producer options.forFunctions) :
    (.ofFile call.signature environment, attrs) ∈ event.nodesTold producer options.forFiles := by
  rw [nodesTold_forFiles, if_pos hlocated]
  have hfile : call.file? = some (.ofFile call.signature environment) :=
    h.file?_eq_some.2 ⟨hsigned, rfl⟩
  exact List.mem_filterMap.2 ⟨_, htold, by simp [collapseNode, hfile]⟩

theorem exists_of_mem_nodesTold_forFiles
    (functions : ∀ call ∈ event.calls, call.IsFunctionOn environment) {told : Call × NodeAttrs α}
    (h : told ∈ event.nodesTold producer options.forFiles) :
    ∃ call, told.1 = .ofFile call.signature environment ∧
      (call, told.2) ∈ event.nodesTold producer options.forFunctions := by
  rw [nodesTold_forFiles] at h
  split at h
  · obtain ⟨⟨call, attrs⟩, htold, hcollapse⟩ := List.mem_filterMap.1 h
    obtain ⟨file, hfile, rfl⟩ := Option.map_eq_some_iff.1 hcollapse
    have hfunction := functions call (mem_calls_of_nodesTold htold)
    exact ⟨call, (hfunction.file?_eq_some.1 hfile).2.symm, htold⟩
  · cases h

theorem mem_calls_of_linksTold {link : Call × Call × EdgeAttrs}
    (h : link ∈ event.linksTold producer options.forFunctions) :
    link.1 ∈ event.calls ∧ link.2.1 ∈ event.calls := by
  obtain ⟨⟨source, hsource, heq⟩, target, htarget, heq'⟩ := ends_of_linksTold (α := Unit) h
  exact ⟨heq ▸ mem_calls_of_nodesTold hsource, heq' ▸ mem_calls_of_nodesTold htarget⟩

theorem mem_linksTold_forFiles (functions : ∀ call ∈ event.calls, call.IsFunctionOn environment)
    {link : Call × Call × EdgeAttrs} : link ∈ event.linksTold producer options.forFiles ↔
      ∃ u v, u.signature ≠ "" ∧ v.signature ≠ "" ∧ link.1 = .ofFile u.signature environment ∧
        link.2.1 = .ofFile v.signature environment ∧
        (u, v, link.2.2) ∈ event.linksTold producer options.forFunctions := by
  rw [linksTold_forFiles, List.mem_filterMap]
  constructor
  · rintro ⟨⟨u, v, attrs⟩, hlink, hcollapse⟩
    obtain ⟨source, hsource, hcollapse⟩ := Option.bind_eq_some_iff.1 hcollapse
    obtain ⟨target, htarget, rfl⟩ := Option.map_eq_some_iff.1 hcollapse
    obtain ⟨hu, hv⟩ := mem_calls_of_linksTold hlink
    obtain ⟨hsu, rfl⟩ := (functions u hu).file?_eq_some.1 hsource
    obtain ⟨hsv, rfl⟩ := (functions v hv).file?_eq_some.1 htarget
    exact ⟨u, v, hsu, hsv, rfl, rfl, hlink⟩
  · rintro ⟨u, v, hsu, hsv, hsource, htarget, hlink⟩
    obtain ⟨hu, hv⟩ := mem_calls_of_linksTold hlink
    refine ⟨(u, v, link.2.2), hlink, ?_⟩
    rw [collapseLink, (functions u hu).file?_eq_some.2 ⟨hsu, rfl⟩,
      (functions v hv).file?_eq_some.2 ⟨hsv, rfl⟩, ← hsource, ← htarget]
    rfl

end Event

/-- A function that is seen apart from calls without a file shows all that is observed of it. -/
theorem Trace.SeesApart.exists_told (h : trace.SeesApart call) (hprogram : call.inLibrary = false)
    (functions : trace.All fun call => call.IsFunctionOn environment)
    (hsigned : call.signature ≠ "") :
    ∃ event ∈ trace.events, event.isLocated ∧ ∃ attrs : NodeAttrs α,
      (call, attrs) ∈ event.nodesTold producer options.forFunctions ∧
      ∀ sign, (observed producer options.forFunctions call : NodeAttrs α).shows sign →
        attrs.shows sign := by
  have hplace : options.forFunctions.place? call = some call :=
    Options.place?_forFunctions.2 ⟨hprogram, rfl⟩
  have hfile {caller callee : Call} (hevent : .call caller callee ∈ trace.events)
      (hsigned : caller.signature ≠ "") : caller.file?.isSome := by
    have hcaller := functions _ hevent caller (List.mem_cons_self ..)
    rw [hcaller.file?_eq_some.2 ⟨hsigned, rfl⟩]
    rfl
  rcases h with hevent | ⟨callee, hevent⟩ | ⟨caller, hevent, hcaller, hsigned⟩
  · exact ⟨_, hevent, rfl, _, Event.mem_nodesTold.2 (.inl ⟨call, rfl, hplace, rfl⟩), fun _ => id⟩
  · exact ⟨_, hevent, hfile hevent hsigned, _,
      Event.mem_nodesTold.2 (.inr ⟨call, callee, rfl, .inl ⟨hplace, rfl⟩⟩),
      fun _ => shows_observedCaller⟩
  · have hcaller : (options.forFunctions.place? caller).isSome := by
      rw [Options.place?_forFunctions.2 ⟨hcaller, rfl⟩]
      rfl
    exact ⟨_, hevent, hfile hevent hsigned, _,
      Event.mem_nodesTold.2 (.inr ⟨caller, call, rfl, .inr ⟨hcaller, hplace, rfl⟩⟩), fun _ => id⟩

/-- What is told of a function of a file that was seen as a whole is told of the file. -/
theorem Trace.SeesFile.exists_told (h : trace.SeesFile call.signature)
    (functions : trace.All fun call => call.IsFunctionOn environment)
    (hsigned : call.signature ≠ "") (hevent : event ∈ trace.events) {attrs : NodeAttrs α}
    (htold : (call, attrs) ∈ event.nodesTold producer options.forFunctions) :
    ∃ event ∈ trace.events, event.isLocated ∧ ∃ others : NodeAttrs α,
      (call, others) ∈ event.nodesTold producer options.forFunctions ∧
      ∀ sign, attrs.shows sign → others.shows sign := by
  -- Nothing is told of files by a call whose caller has none: `h` names another event for these.
  by_cases hlocated : event.isLocated
  · exact ⟨event, hevent, hlocated, attrs, htold, fun _ => id⟩
  · rcases Event.mem_nodesTold.1 htold with ⟨seen, rfl, -, -⟩ |
      ⟨caller, callee, rfl, hends⟩
    · exact absurd rfl hlocated
    · have hcaller := functions _ hevent caller (List.mem_cons_self ..)
      have hunsigned : caller.signature = "" := by
        by_contra hsigned
        rw [Event.isLocated, hcaller.file?_eq_some.2 ⟨hsigned, rfl⟩] at hlocated
        exact hlocated rfl
      rcases hends with ⟨hplace, -⟩ | ⟨hplace, hcallee, hattrs⟩
      · rw [(Options.place?_forFunctions.1 hplace).2] at hunsigned
        exact absurd hunsigned hsigned
      · obtain ⟨place, hplace⟩ := Option.isSome_iff_exists.1 hplace
        obtain ⟨hlibrary, heq⟩ := Options.place?_forFunctions.1 hcallee
        subst heq
        have hapart := h caller callee hevent (Options.place?_forFunctions.1 hplace).1 hunsigned rfl
        rw [show attrs = _ from hattrs]
        exact hapart.exists_told hlibrary functions hsigned

/-! ## Whole graphs -/

namespace CallGraph

/-- One graph shows of files what another one shows of their functions. -/
structure IsCollapse (functions collapsed : CallGraph α) (environment : Environment)
    (whole : String → Prop) : Prop where
  files : ∀ call ∈ collapsed.calls, ∃ path, path ≠ "" ∧ call = .ofFile path environment
  shown : ∀ path sign, path ≠ "" → collapsed.nodeShows sign (.ofFile path environment) →
    ∃ u ∈ functions.calls, u.signature = path ∧ functions.nodeShows sign u
  /-- A file that was seen as a whole shows all that its functions show. -/
  shows : ∀ path sign, path ≠ "" → whole path → ∀ u ∈ functions.calls, u.signature = path →
    functions.nodeShows sign u → collapsed.nodeShows sign (.ofFile path environment)
  edges : ∀ source target sign, source ≠ "" → target ≠ "" →
    (collapsed.edgeShows sign (.ofFile source environment) (.ofFile target environment) ↔
      ∃ u ∈ functions.calls, ∃ v ∈ functions.calls, u.signature = source ∧ v.signature = target ∧
        functions.edgeShows sign u v)

variable {origin : String}

theorem allCalls_recorded : (ofTrace origin producer options.forFunctions trace :
    CallGraph α).AllCalls (· ∈ trace.calls) := by
  refine .ofTrace fun event hevent call hcall place hplace => ?_
  obtain ⟨-, rfl⟩ := Options.place?_forFunctions.1 hplace
  exact Trace.mem_calls.2 ⟨event, hevent, hcall⟩

section

variable (distinct : trace.Distinct)

include distinct

/-- A recorded call whose identity is a node's has the file or class of that node. -/
theorem exists_node_of_recorded (hcall : call ∈ trace.calls)
    (h : call.identity ∈
      (ofTrace origin producer options.forFunctions trace : CallGraph α).identities) :
    ∃ u ∈ (ofTrace origin producer options.forFunctions trace : CallGraph α).calls,
      call.identity = u.identity ∧ u.signature = call.signature := by
  obtain ⟨node, hnode, hi⟩ := mem_identities.1 h
  have hmem := List.mem_map_of_mem (f := Node.call) hnode
  exact ⟨node.call, hmem, hi.symm, (distinct _ hcall _ (allCalls_recorded _ hmem) hi.symm).symm⟩

/-- The nodes of the functions of a file show what is told of its functions. -/
theorem exists_node_iff {path : String} {sign : NodeSign} :
    (∃ u ∈ (ofTrace origin producer options.forFunctions trace : CallGraph α).calls,
      u.signature = path ∧
        (ofTrace origin producer options.forFunctions trace : CallGraph α).nodeShows sign u) ↔
      ∃ event ∈ trace.events, ∃ told ∈ event.nodesTold (α := α) producer options.forFunctions,
        told.1.signature = path ∧ told.2.shows sign := by
  constructor
  · rintro ⟨u, hu, rfl, hshown⟩
    obtain ⟨event, hevent, told, htold, hi, hsign⟩ := nodeShows_ofEvents.1 hshown
    have hcall := Trace.mem_calls.2 ⟨event, hevent, Event.mem_calls_of_nodesTold htold⟩
    exact ⟨event, hevent, told, htold, distinct _ hcall _ (allCalls_recorded u hu) hi, hsign⟩
  · rintro ⟨event, hevent, told, htold, rfl, hsign⟩
    have hshown : (ofTrace origin producer options.forFunctions trace : CallGraph α).nodeShows sign
        told.1 := nodeShows_ofEvents.2 ⟨event, hevent, told, htold, rfl, hsign⟩
    obtain ⟨u, hu, hi, hsame⟩ := exists_node_of_recorded distinct
      (Trace.mem_calls.2 ⟨event, hevent, Event.mem_calls_of_nodesTold htold⟩)
      ((wellFormed_ofEvents.withOrigin _ _ _).mem_identities_of_nodeShows hshown)
    exact ⟨u, hu, hsame, nodeShows_congr sign hi ▸ hshown⟩

/-- The edges between the functions of two files show what is told of calls between them. -/
theorem exists_edge_iff {source target : String} {sign : EdgeSign} :
    (∃ u ∈ (ofTrace origin producer options.forFunctions trace : CallGraph α).calls,
      ∃ v ∈ (ofTrace origin producer options.forFunctions trace : CallGraph α).calls,
        u.signature = source ∧ v.signature = target ∧
          (ofTrace origin producer options.forFunctions trace : CallGraph α).edgeShows sign u v) ↔
      ∃ event ∈ trace.events, ∃ link ∈ event.linksTold producer options.forFunctions,
        link.1.signature = source ∧ link.2.1.signature = target ∧ link.2.2.shows sign := by
  constructor
  · rintro ⟨u, hu, v, hv, rfl, rfl, hshown⟩
    obtain ⟨event, hevent, link, hlink, hiu, hiv, hsign⟩ := edgeShows_ofEvents.1 hshown
    obtain ⟨hsource, htarget⟩ := Event.mem_calls_of_linksTold hlink
    exact ⟨event, hevent, link, hlink,
      distinct _ (Trace.mem_calls.2 ⟨event, hevent, hsource⟩) _ (allCalls_recorded u hu) hiu,
      distinct _ (Trace.mem_calls.2 ⟨event, hevent, htarget⟩) _ (allCalls_recorded v hv) hiv, hsign⟩
  · rintro ⟨event, hevent, link, hlink, rfl, rfl, hsign⟩
    have hshown : (ofTrace origin producer options.forFunctions trace : CallGraph α).edgeShows sign
        link.1 link.2.1 := edgeShows_ofEvents.2 ⟨event, hevent, link, hlink, rfl, rfl, hsign⟩
    obtain ⟨hsource, htarget⟩ := Event.mem_calls_of_linksTold hlink
    obtain ⟨hi, hi'⟩ :=
      (wellFormed_ofEvents.withOrigin _ _ _).mem_identities_of_edgeShows hshown
    obtain ⟨u, hu, hiu, hsu⟩ :=
      exists_node_of_recorded distinct (Trace.mem_calls.2 ⟨event, hevent, hsource⟩) hi
    obtain ⟨v, hv, hiv, hsv⟩ :=
      exists_node_of_recorded distinct (Trace.mem_calls.2 ⟨event, hevent, htarget⟩) hi'
    exact ⟨u, hu, v, hv, hsu, hsv, edgeShows_congr sign hiu hiv ▸ hshown⟩

end

theorem isCollapse_ofTrace (functions : trace.All fun call => call.IsFunctionOn environment)
    (distinct : trace.Distinct) :
    IsCollapse (ofTrace origin producer options.forFunctions trace : CallGraph α)
      (ofTrace origin producer options.forFiles trace) environment trace.SeesFile where
  files := by
    refine AllCalls.ofTrace fun event hevent call hcall place hplace => ?_
    rw [Options.place?_forFiles] at hplace
    obtain ⟨seen, hseen, hfile⟩ := Option.bind_eq_some_iff.1 hplace
    obtain ⟨-, rfl⟩ := Options.place?_forFunctions.1 hseen
    obtain ⟨hsigned, rfl⟩ := (functions event hevent call hcall).file?_eq_some.1 hfile
    exact ⟨call.signature, hsigned, rfl⟩
  shown path sign hpath hshown := by
    obtain ⟨event, hevent, told, htold, hi, hsign⟩ := nodeShows_ofEvents.1 hshown
    obtain ⟨call, hfile, htold⟩ :=
      Event.exists_of_mem_nodesTold_forFiles (functions event hevent) htold
    rw [hfile] at hi
    exact (exists_node_iff distinct).2 ⟨event, hevent, _, htold, hi, hsign⟩
  shows path sign hpath hwhole u hu hsame hshown := by
    obtain ⟨event, hevent, ⟨call, attrs⟩, htold, rfl, hsign⟩ :=
      (exists_node_iff distinct).1 ⟨u, hu, hsame, hshown⟩
    obtain ⟨other, hother, hlocated, others, htold, hmore⟩ :=
      hwhole.exists_told functions hpath hevent htold
    have hfunction := functions other hother call (Event.mem_calls_of_nodesTold htold)
    exact nodeShows_ofEvents.2 ⟨other, hother, _,
      Event.mem_nodesTold_forFiles hfunction hpath hlocated htold, rfl, hmore sign hsign⟩
  edges source target sign hsource htarget := by
    rw [exists_edge_iff distinct]
    refine edgeShows_ofEvents.trans ⟨?_, ?_⟩
    · rintro ⟨event, hevent, link, hlink, hs, ht, hsign⟩
      obtain ⟨u, v, -, -, hu, hv, hlink⟩ :=
        (Event.mem_linksTold_forFiles (functions event hevent)).1 hlink
      rw [hu] at hs
      rw [hv] at ht
      exact ⟨event, hevent, _, hlink, hs, ht, hsign⟩
    · rintro ⟨event, hevent, ⟨u, v, attrs⟩, hlink, rfl, rfl, hsign⟩
      exact ⟨event, hevent, (_, _, attrs), (Event.mem_linksTold_forFiles (functions event hevent)).2
        ⟨u, v, hsource, htarget, rfl, rfl, hlink⟩, rfl, rfl, hsign⟩

end CallGraph

/-! ## Loads -/

/-- The graph of files shows what the graph of functions shows of the functions of each file. For C
this needs nothing more, since no two functions share an identity there. -/
theorem Format.load_collapses (format : Format) {files : FileTree} {source : Source}
    {lines : List String} (options : Options) (hread : format.listing files source = .ok lines)
    (distinct : format.environment = .android → (format.trace lines).Distinct) :
    ∃ functions collapsed : CallGraph α,
      format.load files source options.forFunctions = .ok functions ∧
      format.load files source options.forFiles = .ok collapsed ∧
      functions.IsCollapse collapsed format.environment (format.trace lines).SeesFile := by
  have hdistinct : (format.trace lines).Distinct := by
    cases henvironment : format.environment with
    | c => exact distinct_of_c henvironment lines
    | android => exact distinct henvironment
  exact ⟨_, _, load_of_listing hread _, load_of_listing hread _,
    CallGraph.isCollapse_ofTrace (format.all_isFunctionOn lines) hdistinct⟩

/-- A class whose methods call one another. -/
def selfCallingLines : List String := ["M:app.A:run (M)app.B:go", "M:app.B:go (M)app.B:help"]

def selfCallingClass : Source := .text "M:app.A:run (M)app.B:go\nM:app.B:go (M)app.B:help\n"

theorem edge_of_selfCallingClass :
    (Format.javaCalls []).listing [] selfCallingClass = .ok selfCallingLines ∧
    ((Format.javaCalls []).trace selfCallingLines).Distinct ∧
    ∃ collapsed : CallGraph Rat,
      (Format.javaCalls []).load [] selfCallingClass { granularity := .file } = .ok collapsed ∧
      collapsed.edgeShows .call (.ofFile "app.B" .android) (.ofFile "app.B" .android) := by
  have hread : (Format.javaCalls []).listing [] selfCallingClass = .ok selfCallingLines := rfl
  have distinct : ((Format.javaCalls []).trace selfCallingLines).Distinct := by
    unfold Trace.Distinct
    decide +kernel
  obtain ⟨functions, collapsed, hfunctions, hcollapsed, h⟩ :=
    (Format.javaCalls []).load_collapses (α := Rat) {} hread fun _ => distinct
  cases (Format.load_of_listing hread _).symm.trans hfunctions
  refine ⟨hread, distinct, collapsed, hcollapsed, ?_⟩
  refine (h.edges "app.B" "app.B" .call (by decide) (by decide)).2
    ⟨⟨"go", "app.B", .android, .function⟩, ?_, ⟨"help", "app.B", .android, .function⟩, ?_,
      rfl, rfl, ?_⟩
  · decide +kernel
  · decide +kernel
  · decide +kernel

/-- Two methods of different classes that share an identity. -/
def sharedIdentity : Source := .text "M:x:y (M)c d:e f\nM:x:y (M)f c d:e\n"

/-- Of functions that share an identity, only the first is a node, but their files are two. -/
theorem file_without_function : ∃ functions collapsed : CallGraph Rat,
    (Format.javaCalls []).load [] sharedIdentity {} = .ok functions ∧
    (Format.javaCalls []).load [] sharedIdentity { granularity := .file } = .ok collapsed ∧
    .ofFile "f c d" .android ∈ collapsed.calls ∧ ¬ ∃ u ∈ functions.calls, u.signature = "f c d" :=
  ⟨_, _, rfl, rfl, by decide +kernel, by decide +kernel⟩

end AttackSurface
