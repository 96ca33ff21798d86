import AttackSurface.Cflow.Tree
import AttackSurface.Gprof.Report
import AttackSurface.JavaCalls.Listing
import AttackSurface.Proofs.Text
import Mathlib.Data.List.TakeWhile

/-! The formats of listings. Whatever the format, a load reads lines and gives the graph of their
trace, and all that is recorded was read off some line as a function of the format's platform. -/
namespace AttackSurface

/-! ## Recorded calls -/

/-- The calls that an event is about. -/
def Event.calls : Event → List Call
  | .node seen => [seen]
  | .call caller callee => [caller, callee]

/-- All calls that the events of a trace are about have a property. -/
def Trace.All (P : Call → Prop) (trace : Trace) : Prop :=
  ∀ event ∈ trace.events, ∀ call ∈ event.calls, P call

/-- A call as the readers of all formats give it. -/
structure Call.IsFunctionOn (call : Call) (environment : Environment) : Prop where
  granularity : call.granularity = .function
  environment : call.environment = environment

/-! ### Trees -/

namespace Cflow

variable {P : Call → Prop} {text : String} {line : Line}

theorem readLine_call (h : readLine text = .ok line) : line.call.IsFunctionOn .c ∧
    ∀ c ∈ line.call.name.toList, Text.isWordChar c := by
  unfold readLine at h
  simp only at h
  split at h
  · cases h
  · rename_i name hname
    cases h
    refine ⟨⟨rfl, rfl⟩, ?_⟩
    obtain ⟨rest, hrest⟩ := Text.exists_of_firstMatch hname
    unfold nameHere? at hrest
    simp only at hrest
    split at hrest
    · cases hrest
      rw [String.toList_ofList]
      exact fun c hc => List.mem_takeWhile_imp hc
    · cases hrest

/-- What holds of the calls of all lines holds of those that they are nested in. -/
theorem forall_nestedFrom {parents : List Call} {previous : Option Line} {tree : List Line}
    (hparents : ∀ call ∈ parents, P call) (hprevious : ∀ before ∈ previous, P before.call)
    (htree : ∀ line ∈ tree, P line.call) :
    ∀ pair ∈ nestedFrom parents previous tree, (∀ parent ∈ pair.1, P parent) ∧ P pair.2.call := by
  induction tree generalizing parents previous with
  | nil => exact fun pair hpair => absurd hpair List.not_mem_nil
  | cons line rest ih =>
    obtain ⟨hline, hrest⟩ := List.forall_mem_cons.1 htree
    have henclosing : ∀ call ∈ enclosing parents previous line, P call := by
      unfold enclosing
      split
      · exact hparents
      · split
        · exact List.forall_mem_cons.2 ⟨hprevious _ rfl, hparents⟩
        · exact fun call hcall => hparents call (List.mem_of_mem_drop hcall)
    refine List.forall_mem_cons.2 ⟨⟨fun parent hparent => ?_, hline⟩, ?_⟩
    · exact henclosing parent (List.mem_of_mem_head? hparent)
    · exact ih henclosing (fun before hbefore => Option.some.inj hbefore ▸ hline) hrest

theorem all_trace (read : ∀ text line, readLine text = .ok line → P line.call) (reverse : Bool)
    (lines : List String) : (trace reverse lines).All P := by
  have htree : ∀ line ∈ treeLines lines, P line.call := by
    intro line hline
    obtain ⟨text, -, htext⟩ := List.mem_filterMap.1 hline
    cases hread : readLine text with
    | error e => simp [hread, Except.toOption] at htext
    | ok found =>
      simp only [hread, Except.toOption, Option.some.injEq] at htext
      exact htext ▸ read text found hread
  intro event hevent
  obtain ⟨⟨parent?, line⟩, hpair, hshown⟩ := List.mem_filterMap.1 hevent
  obtain ⟨parent, hparent, rfl⟩ := Option.map_eq_some_iff.1 hshown
  obtain ⟨hparents, hline⟩ := forall_nestedFrom (fun _ h => absurd h List.not_mem_nil)
    (fun _ h => absurd h (Option.not_mem_none _)) htree _ hpair
  have hpair := hparents parent hparent
  cases reverse <;> simp [Event.calls, hpair, hline]

end Cflow

/-! ### Profiles -/

namespace Gprof

variable {P : Call → Prop} {text : String} {call : Call}

theorem readLine_call (h : readLine text = .ok call) : call.IsFunctionOn .c ∧
    ∀ c ∈ call.name.toList, isNameChar c := by
  unfold readLine at h
  simp only at h
  split at h
  · cases h
  · split at h
    · cases h
    · cases h
      refine ⟨⟨rfl, rfl⟩, ?_⟩
      rw [String.toList_ofList]
      exact fun c hc => List.mem_takeWhile_imp hc

def Block.calls (block : Block) : List Call :=
  block.entry.toList ++ block.callers ++ block.callees

theorem Block.forall_calls_add (read : ∀ text call, readLine text = .ok call → P call)
    {block : Block} (h : ∀ call ∈ block.calls, P call) (line : String) :
    ∀ call ∈ (block.add line).calls, P call := by
  simp only [calls, List.forall_mem_append] at h ⊢
  obtain ⟨⟨hentry, hcallers⟩, hcallees⟩ := h
  unfold Block.add
  split
  · rename_i call _ hcall
    exact ⟨⟨by simpa using read line call hcall, hcallers⟩, hcallees⟩
  · exact ⟨⟨by simp, hcallers⟩, hcallees⟩
  · rename_i call _ hcall
    have hread := List.forall_mem_singleton.2 (read line call hcall)
    split
    · exact ⟨⟨hentry, hcallers⟩, List.forall_mem_append.2 ⟨hcallees, hread⟩⟩
    · exact ⟨⟨hentry, List.forall_mem_append.2 ⟨hcallers, hread⟩⟩, hcallees⟩
  · exact ⟨⟨hentry, hcallers⟩, hcallees⟩

theorem Block.forall_calls_events {block : Block} (h : ∀ call ∈ block.calls, P call) :
    ∀ event ∈ block.events, ∀ call ∈ event.calls, P call := by
  simp only [calls, List.forall_mem_append] at h
  obtain ⟨⟨hentry, hcallers⟩, hcallees⟩ := h
  unfold events
  split
  · exact fun event hevent => absurd hevent List.not_mem_nil
  · rename_i entry hblock
    have hfunction : P entry := hentry entry (by simp [hblock])
    simp only [List.forall_mem_append, List.forall_mem_cons, List.forall_mem_map, Event.calls]
    simpa [hfunction] using And.intro hcallers hcallees

theorem forall_calls_eventsFrom (read : ∀ text call, readLine text = .ok call → P call)
    {block : Block} (h : ∀ call ∈ block.calls, P call) (lines : List String) :
    ∀ event ∈ eventsFrom block lines, ∀ call ∈ event.calls, P call := by
  induction lines generalizing block with
  | nil => exact block.forall_calls_events h
  | cons line rest ih =>
    unfold eventsFrom
    split
    · refine List.forall_mem_append.2 ⟨block.forall_calls_events h, ih ?_⟩
      exact fun call hcall => absurd hcall List.not_mem_nil
    · split
      · exact ih h
      · exact ih (block.forall_calls_add read h line)

theorem all_trace (read : ∀ text call, readLine text = .ok call → P call) (lines : List String) :
    (trace lines).All P :=
  forall_calls_eventsFrom read (fun _ hcall => absurd hcall List.not_mem_nil) _

/-- The lines that a load makes use of. A fault below the end of the call graph goes unnoticed. -/
def listing (files : FileTree) (source : Source) : Except LoadError (List String) :=
  (source.read files).bind fun reading =>
    match reading.fault with
    | none => .ok reading.lines
    | some fault =>
      if isComplete reading.lines then .ok reading.lines else .error (source.faultError fault)

theorem listing_text (files : FileTree) (content : String) :
    listing files (.text content) = .ok (Text.textLines content) := rfl

theorem load_eq {α : Type} (files : FileTree) (source : Source) (options : Options) :
    (load files source options : Except LoadError (CallGraph α)) =
      (listing files source).map fun lines =>
        .ofTrace source.describe .gprof options (trace lines) := by
  unfold load listing
  cases source.read files with
  | error e => rfl
  | ok reading =>
    simp only [bind, Except.bind]
    cases reading.fault with
    | none => rfl
    | some fault => cases hcomplete : isComplete reading.lines <;> rfl

end Gprof

/-! ### Calls between methods -/

namespace JavaCalls

variable {P : Call → Prop} {half text : String} {call caller callee : Call}

theorem readHalf_call (h : readHalf half = .ok call) : call.IsFunctionOn .android := by
  unfold readHalf at h
  simp only at h
  split at h
  · cases h
  · split at h
    · cases h
    · cases h
    · cases h
      exact ⟨rfl, rfl⟩

theorem readLine_calls (h : readLine text = .ok (caller, callee)) :
    caller.IsFunctionOn .android ∧ callee.IsFunctionOn .android := by
  unfold readLine at h
  simp only at h
  split at h
  · cases h
  · rename_i left right _
    cases hleft : readHalf (String.ofList left) with
    | error e => simp [hleft, bind, Except.bind] at h
    | ok found =>
      cases hright : readHalf (String.ofList right) with
      | error e => simp [hleft, hright, bind, Except.bind] at h
      | ok other =>
        simp only [hleft, hright, bind, Except.bind, pure, Except.pure] at h
        cases h
        exact ⟨readHalf_call hleft, readHalf_call hright⟩

theorem all_trace (packages : List String) (lines : List String) :
    (trace packages lines).All fun call => call.IsFunctionOn .android := by
  intro event hevent
  obtain ⟨⟨text, number⟩, -, hshown⟩ := List.mem_filterMap.1 hevent
  simp only at hshown
  split at hshown
  · rename_i hread
    cases hshown
    obtain ⟨hcaller, hcallee⟩ := readLine_calls hread
    simp [Event.calls, hcaller, hcallee]
  · cases hshown

end JavaCalls

/-! ## Formats -/

/-- A format of listings, with what else its reader is told. -/
inductive Format where
  | cflow (reverse : Bool)
  | gprof
  | javaCalls (packages : List String)
  deriving DecidableEq, Repr

namespace Format

def producer : Format → Producer
  | .cflow _ => .cflow
  | .gprof => .gprof
  | .javaCalls _ => .javacg

/-- The platform of the programs that are listed. -/
def environment : Format → Environment
  | .cflow _ => .c
  | .gprof => .c
  | .javaCalls _ => .android

def trace : Format → List String → Trace
  | .cflow reverse => Cflow.trace reverse
  | .gprof => Gprof.trace
  | .javaCalls packages => JavaCalls.trace packages

/-- The lines that a load makes use of. -/
def listing (format : Format) (files : FileTree) (source : Source) :
    Except LoadError (List String) :=
  match format with
  | .gprof => Gprof.listing files source
  | _ => source.allLines files

def load {α : Type} (format : Format) (files : FileTree) (source : Source) (options : Options) :
    Except LoadError (CallGraph α) :=
  match format with
  | .cflow reverse => Cflow.load files source reverse options
  | .gprof => Gprof.load files source options
  | .javaCalls packages => JavaCalls.load files source packages options

variable {format : Format} {lines : List String}

/-- A load gives the graph of the trace of its lines, whatever the options. -/
theorem load_eq {α : Type} (format : Format) (files : FileTree) (source : Source)
    (options : Options) : (format.load files source options : Except LoadError (CallGraph α)) =
      (format.listing files source).map fun lines =>
        .ofTrace source.describe format.producer options (format.trace lines) := by
  cases format with
  | cflow reverse => rfl
  | gprof => exact Gprof.load_eq files source options
  | javaCalls packages => rfl

theorem load_of_listing {α : Type} {files : FileTree} {source : Source}
    (hread : format.listing files source = .ok lines) (options : Options) :
    format.load files source options = .ok (.ofTrace source.describe format.producer options
      (format.trace lines) : CallGraph α) := by
  rw [load_eq, hread]
  rfl

theorem exists_lines_of_load {α : Type} {files : FileTree} {source : Source} {options : Options}
    {g : CallGraph α} (h : format.load files source options = .ok g) :
    ∃ lines, format.listing files source = .ok lines ∧
      g = .ofTrace source.describe format.producer options (format.trace lines) := by
  rw [load_eq] at h
  cases hread : format.listing files source with
  | error e =>
    rw [hread] at h
    cases h
  | ok lines =>
    rw [hread] at h
    cases h
    exact ⟨lines, rfl, rfl⟩

theorem all_isFunctionOn (format : Format) (lines : List String) :
    (format.trace lines).All fun call => call.IsFunctionOn format.environment := by
  cases format with
  | cflow reverse => exact Cflow.all_trace (fun _ _ h => (Cflow.readLine_call h).1) reverse lines
  | gprof => exact Gprof.all_trace (fun _ _ h => (Gprof.readLine_call h).1) lines
  | javaCalls packages => exact JavaCalls.all_trace packages lines

/-- The names of C functions have no blanks. -/
theorem all_names (hc : format.environment = .c) (lines : List String) :
    (format.trace lines).All fun call => ' ' ∉ call.name.toList := by
  cases format with
  | cflow reverse =>
    refine Cflow.all_trace (fun text line h hblank => ?_) reverse lines
    exact absurd ((Cflow.readLine_call h).2 _ hblank) (by decide)
  | gprof =>
    refine Gprof.all_trace (fun text call h hblank => ?_) lines
    exact absurd ((Gprof.readLine_call h).2 _ hblank) (by decide)
  | javaCalls packages => cases hc

end Format

end AttackSurface
