import AttackSurface.Proofs.Graph.Calls
import AttackSurface.Proofs.Graph.Loaded

/-! What never becomes a node. No library call does, in a load or in any later change of the graph:
a change brings in no calls but those of the graphs it starts from, and located ones. -/
namespace AttackSurface

variable {α : Type} {environment : Environment} {granularities : List Granularity}
  {call namesake place : Call} {P : Call → Prop}

/-! ## Calls of a program -/

/-- A function or file of a program, and nothing of its platform's library. -/
structure Call.OfProgram (environment : Environment) (granularities : List Granularity)
    (call : Call) : Prop where
  environment : call.environment = environment
  granularity : call.granularity ∈ granularities
  inLibrary : call.inLibrary = false
  file : call.granularity = .file → call.name = "" ∧ call.signature ≠ ""

namespace Call

theorem inLibrary_ofFile (path : String) (environment : Environment) :
    (ofFile path environment).inLibrary = false := by
  cases environment <;> rfl

/-- A C function with a signature is none of the library's, and a method is one by its class. -/
theorem inLibrary_withSignature (hsame : call.environment = namesake.environment)
    (hfunction : namesake.granularity = .function) (hsigned : namesake.signature ≠ "")
    (h : namesake.inLibrary = false) :
    (call.withSignature namesake.signature).inLibrary = false := by
  unfold inLibrary at *
  simp only [withSignature, hsame]
  cases hplatform : namesake.environment with
  | c => simp [isBareFunction, isNameOnly, hsigned]
  | android =>
    simp only [hplatform, isFrameworkMethod, hfunction, decide_true, Bool.true_and] at h
    simp [isFrameworkMethod, h]

/-- A call that is located belongs to the library no more than its namesake does. -/
theorem OfProgram.located (h : call.OfProgram environment granularities)
    (hn : namesake.OfProgram environment granularities) (hnamed : call.name ≠ "")
    (hsame : namesake.name = call.name) (hsigned : namesake.signature ≠ "") :
    (call.withSignature namesake.signature).OfProgram environment granularities where
  environment := h.environment
  granularity := h.granularity
  inLibrary := by
    have hfunction : namesake.granularity = .function := by
      cases hkind : namesake.granularity with
      | function => rfl
      | file => exact absurd (hsame.symm.trans (hn.file hkind).1) hnamed
    exact inLibrary_withSignature (h.environment.trans hn.environment.symm) hfunction hsigned
      hn.inLibrary
  file hkind := absurd (h.file hkind).1 hnamed

/-- The place of a recorded call is one of the program. -/
theorem IsFunctionOn.ofProgram {options : Options} (h : call.IsFunctionOn environment)
    (hkind : options.granularity ∈ granularities) (hplace : options.place? call = some place) :
    place.OfProgram environment granularities := by
  unfold Options.place? at hplace
  split at hplace
  · cases hplace
  · rename_i hlibrary
    cases hgranularity : options.granularity with
    | function =>
      simp only [hgranularity, at?, Option.some.injEq] at hplace
      subst hplace
      refine ⟨h.environment, ?_, Bool.eq_false_iff.2 hlibrary, fun hfile => ?_⟩
      · rw [h.granularity, ← hgranularity]
        exact hkind
      · rw [h.granularity] at hfile
        cases hfile
    | file =>
      simp only [hgranularity, at?, file?, h.granularity] at hplace
      split at hplace
      · cases hplace
      · rename_i hsigned
        cases hplace
        rw [hgranularity] at hkind
        exact ⟨h.environment, hkind, inLibrary_ofFile .., fun _ => ⟨rfl, hsigned⟩⟩

end Call

namespace CallGraph

/-- The graphs of listings of programs for one platform, at some granularities, and what the
operations make of them. -/
inductive LoadedIn (environment : Environment) (granularities : List Granularity) :
    CallGraph α → Prop
  | load {format : Format} {files source options g} (platform : format.environment = environment)
    (kind : options.granularity ∈ granularities)
    (h : format.load files source options = .ok g) : LoadedIn environment granularities g
  /-- Several profiles in one graph, in any order of arrival. -/
  | aggregate {origin arrivals g}
    (each : ∀ profile, .ok profile ∈ arrivals → LoadedIn environment granularities profile)
    (h : Gprof.aggregate origin arrivals = .ok g) : LoadedIn environment granularities g
  | reconcile {g reference} (h : LoadedIn environment granularities g)
    (hr : LoadedIn environment granularities reference) :
    LoadedIn environment granularities (g.reconcile reference)
  | union {g other} (h : LoadedIn environment granularities g)
    (ho : LoadedIn environment granularities other) :
    LoadedIn environment granularities (g.union other)
  | merge {static profile} (h : LoadedIn environment granularities static)
    (hp : LoadedIn environment granularities profile) :
    LoadedIn environment granularities (static.merge profile)
  | fragmentize {g} (h : LoadedIn environment granularities g) :
    LoadedIn environment granularities g.fragmentize

variable {g other reference : CallGraph α}

/-! ## Whole runs -/

/-- What every step of a run keeps. -/
structure Absorbed (environment : Environment) (granularities : List Granularity)
    (g : CallGraph α) : Prop where
  wellFormed : g.WellFormed
  calls : g.AllCalls (·.OfProgram environment granularities)

namespace Absorbed

theorem empty (source : String) :
    (empty source : CallGraph α).Absorbed environment granularities :=
  ⟨wellFormed_empty source, .empty source⟩

theorem unionWith (h : g.Absorbed environment granularities)
    (ho : other.Absorbed environment granularities)
    (combine : NodeAttrs α → NodeAttrs α → NodeAttrs α) :
    (g.unionWith combine other).Absorbed environment granularities :=
  ⟨h.wellFormed.unionWith combine other, h.calls.unionWith ho.calls combine⟩

theorem withOrigin (h : g.Absorbed environment granularities) (source : String)
    (errors : List LineError) :
    ({ g with source, errors } : CallGraph α).Absorbed environment granularities :=
  ⟨h.wellFormed.withOrigin source errors _, h.calls⟩

theorem reconcile (h : g.Absorbed environment granularities)
    (hr : reference.Absorbed environment granularities) :
    (g.reconcile reference).Absorbed environment granularities := by
  refine ⟨h.wellFormed.reconcile reference, fun x hx => ?_⟩
  rw [reconcile_eq_renames] at hx
  have here (move : Call × Call) (hmove : move ∈ g.relocations reference) : move.1 ∈ g.calls :=
    (mem_relocations.1 hmove).1
  have distinct := h.wellFormed.distinct_relocations reference
  rcases h.wellFormed.mem_calls_of_renames here distinct hx with
    hx | ⟨⟨call, renamed⟩, hmove, rfl⟩
  · exact h.calls x hx
  · -- The new signature is that of a function of the reference, which is none of the library's.
    obtain ⟨hcall, hlocated⟩ := mem_relocations.1 hmove
    obtain ⟨hnamed, -, signature, ⟨hsigned, namesake, hnamesake, hname, rfl, -⟩, rfl⟩ :=
      hr.wellFormed.located?_eq_some.1 hlocated
    exact (h.calls call hcall).located (hr.calls namesake hnamesake) hnamed hname hsigned

end Absorbed

theorem LoadedIn.absorbed (h : LoadedIn environment granularities g) :
    g.Absorbed environment granularities := by
  induction h with
  | @load format files source options g platform kind h =>
    obtain ⟨lines, -, rfl⟩ := Format.exists_lines_of_load h
    refine ⟨wellFormed_ofEvents.withOrigin _ _ _, .ofTrace fun event hevent call hcall place => ?_⟩
    have hfunction := format.all_isFunctionOn lines event hevent call hcall
    exact (platform ▸ hfunction).ofProgram kind
  | aggregate each h ih =>
    refine Gprof.aggregate_induction (.empty _) (fun aggregate profile hg hprofile => ?_) h
    exact (hg.unionWith (ih profile hprofile) NodeAttrs.accumulate).withOrigin ..
  | reconcile _ _ ih ihr => exact ih.reconcile ihr
  | union _ _ ih iho => exact ih.unionWith iho _
  | merge _ _ ih ihp =>
    have hstatic := ih.reconcile ihp
    have hprofile := ihp.reconcile hstatic
    exact (((Absorbed.empty _).unionWith hstatic _).unionWith hprofile _).withOrigin ..
  | fragmentize _ ih => exact ⟨ih.wellFormed.fragmentize, ih.calls.fragmentize⟩

/-- No call of the platform's library becomes a node in any run, and no node is of a granularity at
which nothing was loaded. A node that is a file has a path and no name. -/
theorem LoadedIn.library_absorbed (h : LoadedIn environment granularities g) :
    ∀ call ∈ g.calls, call.inLibrary = false ∧ call.granularity ∈ granularities ∧
      (call.granularity = .file → call.name = "" ∧ call.signature ≠ "") := by
  intro call hcall
  have hprogram := h.absorbed.calls call hcall
  exact ⟨hprogram.inLibrary, hprogram.granularity, hprogram.file⟩

/-- A call of a method whose class is not known, and one of the same method in its class. -/
def blankClassListing : Source := .text "M::run (M)app.B:go\n"
def knownClassListing : Source := .text "M:app.A:run (M)java.lang.Object:hashCode\n"

theorem run_of_locatedClass : ∃ g reference : CallGraph Rat,
    (Format.javaCalls []).load [] blankClassListing {} = .ok g ∧
    (Format.javaCalls []).load [] knownClassListing {} = .ok reference ∧
    ⟨"run", "app.A", .android, .function⟩ ∈ (g.reconcile reference).calls ∧
    (⟨"run", "app.A", .android, .function⟩ : Call).inLibrary = false := by
  let g : CallGraph Rat := .ofTrace "<text>" .javacg {} (JavaCalls.trace [] ["M::run (M)app.B:go"])
  let reference : CallGraph Rat :=
    .ofTrace "<text>" .javacg {} (JavaCalls.trace [] ["M:app.A:run (M)java.lang.Object:hashCode"])
  have hg : (Format.javaCalls []).load [] blankClassListing {} = .ok g := by rfl
  have hreference : (Format.javaCalls []).load [] knownClassListing {} = .ok reference := by rfl
  have hlocated : ⟨"run", "app.A", .android, .function⟩ ∈ (g.reconcile reference).calls := by
    decide +kernel
  have hrun : LoadedIn .android [.function] (g.reconcile reference) :=
    .reconcile (.load rfl (by decide) hg) (.load rfl (by decide) hreference)
  exact ⟨g, reference, hg, hreference, hlocated, (hrun.library_absorbed _ hlocated).1⟩

end CallGraph

end AttackSurface
