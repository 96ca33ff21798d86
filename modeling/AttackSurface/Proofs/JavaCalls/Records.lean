import AttackSurface.Proofs.Graph.Listing
import AttackSurface.Proofs.Graph.Quotient
import AttackSurface.Proofs.Reports

/-! Listings as java-callgraph prints them: records of calls between methods, among lines about
classes. Each record is read back, and what its graph shows is told by the records about the
packages asked for. More packages show more. -/
namespace AttackSurface.JavaCalls

/-! ## What is printed -/

/-- A method and its class. Only the name may hold a colon. -/
@[ext] structure Method where
  className : List Char
  name : List Char
  class_dense : ∀ c ∈ className, ¬ Text.isBlank c
  class_plain : ':' ∉ className
  name_dense : ∀ c ∈ name, ¬ Text.isBlank c
  name_nonempty : name ≠ []

namespace Method

variable (method : Method)

def text : List Char := method.className ++ ':' :: method.name

def call : Call where
  name := String.ofList method.name
  signature := String.ofList method.className
  environment := .android

/-- Is the class one of the framework or the runtime? -/
def IsFramework : Prop := ∃ start ∈ Library.Android.packages, start.toList <+: method.className

/-- Does a table hold the name of the method, alone or with its class in front of it, simple or in
full? -/
def IsListed (table : List String) : Prop :=
  ∃ entry ∈ table, entry.toList = method.name ∨
    ∃ className, entry.toList = className ++ '.' :: method.name ∧
      (className = method.className ∨
        '.' ∉ className ∧ '.' :: className <:+ method.className)

end Method

/-- One method calls another. -/
structure Record where
  caller : Method
  kind : Char
  callee : Method
  kind_mem : kind ∈ invocationKinds

namespace Record

variable (record : Record)

def callerText : List Char := 'M' :: ':' :: record.caller.text

def calleeText : List Char := '(' :: record.kind :: ')' :: record.callee.text

def text : List Char := record.callerText ++ ' ' :: record.calleeText

def line : String := String.ofList record.text

/-- Does the line mention one of the packages? Without packages, every line is asked for. -/
def IsAbout (packages : List String) : Prop :=
  packages = [] ∨ ∃ package ∈ packages, package.toList <:+: record.text

end Record

/-- A line of a listing: a record, or a line that is not about methods. -/
inductive Entry where
  | call (record : Record)
  | other (line : String) (unmarked : ¬ "M:".toList <+: line.toList)

def Entry.line : Entry → String
  | .call record => record.line
  | .other line _ => line

/-- The text of a listing. -/
def render (entries : List Entry) : String := "\n".intercalate (entries.map Entry.line)

/-- Does a record about the packages tell that a method calls another? -/
def Calls (packages : List String) (entries : List Entry) (caller callee : Method) : Prop :=
  ∃ record, .call record ∈ entries ∧ record.IsAbout packages ∧ record.caller = caller ∧
    record.callee = callee

variable {packages more lines : List String} {entries : List Entry} {event : Event}
  {options : Options} {u v : Call}

/-! ## Methods -/

namespace Method

variable {method : Method}

theorem not_isBlank_of_mem_text {c : Char} (h : c ∈ method.text) : ¬ Text.isBlank c := by
  simp only [text, List.mem_append, List.mem_cons] at h
  rcases h with hclass | rfl | hname
  · exact method.class_dense c hclass
  · decide
  · exact method.name_dense c hname

theorem inLibrary_iff : method.call.inLibrary ↔ method.IsFramework := by
  simp only [Call.inLibrary, call, Call.isFrameworkMethod, decide_true, Bool.true_and,
    Library.Android.isFramework, List.any_eq_true, Text.isSome_after?, String.toList_ofList,
    IsFramework]

/-- What follows the last dot of a class is the class itself or its simple name. -/
theorem isListedMethod_iff {table : List String} :
    method.call.isListedMethod table ↔ method.IsListed table := by
  have hmem (text : List Char) :
      String.ofList text ∈ table ↔ ∃ entry ∈ table, entry.toList = text := by
    refine ⟨fun h => ⟨_, h, String.toList_ofList⟩, ?_⟩
    rintro ⟨entry, hentry, rfl⟩
    rwa [String.ofList_toList]
  have hqualified (className : List Char) :
      String.ofList className ++ "." ++ String.ofList method.name =
        String.ofList (className ++ '.' :: method.name) := by
    rw [← String.toList_inj, String.toList_append, String.toList_append]
    simp
  have hsimple (className : List Char) : Text.afterLast '.' method.className = className ↔
      '.' ∉ className ∧ (className = method.className ∨ '.' :: className <:+ method.className) :=
    Text.afterLast_eq_iff
  obtain ⟨hdot, hbehind⟩ := (hsimple _).1 rfl
  simp only [Call.isListedMethod, call, String.toList_ofList, Bool.or_eq_true,
    List.contains_iff_mem, hqualified, hmem]
  constructor
  · rintro ((⟨entry, hentry, hname⟩ | ⟨entry, hentry, hname⟩) | ⟨entry, hentry, hname⟩)
    · exact ⟨entry, hentry, .inl hname⟩
    · exact ⟨entry, hentry, .inr ⟨_, hname, hbehind.imp_right fun h => ⟨hdot, h⟩⟩⟩
    · exact ⟨entry, hentry, .inr ⟨_, hname, .inl rfl⟩⟩
  · rintro ⟨entry, hentry, hname | ⟨className, hname, rfl | ⟨hdot', hbehind'⟩⟩⟩
    · exact .inl (.inl ⟨entry, hentry, hname⟩)
    · exact .inr ⟨entry, hentry, hname⟩
    · rw [(hsimple className).2 ⟨hdot', .inr hbehind'⟩]
      exact .inl (.inr ⟨entry, hentry, hname⟩)

theorem isInput_iff :
    method.call.isInput ↔ method.IsFramework ∧ method.IsListed Library.Android.inputs := by
  rw [← inLibrary_iff, ← isListedMethod_iff, ← Bool.and_eq_true]
  rfl

theorem isOutput_iff :
    method.call.isOutput ↔ method.IsFramework ∧ method.IsListed Library.Android.outputs := by
  rw [← inLibrary_iff, ← isListedMethod_iff, ← Bool.and_eq_true]
  rfl

theorem isPlain_call (method : Method) : method.call.IsPlain where
  function := rfl
  no_space := fun hspace => by
    rw [call, String.toList_ofList] at hspace
    exact method.name_dense ' ' hspace (by decide)

/-- The identity of a method tells its class and its name. -/
theorem call_identity_inj {other : Method} :
    method.call.identity = other.call.identity ↔ method = other := by
  refine ⟨fun h => ?_, fun h => h ▸ rfl⟩
  obtain ⟨hname, hclass⟩ := method.isPlain_call.eq_of_identity other.isPlain_call h
  exact Method.ext (String.ofList_injective hclass) (String.ofList_injective hname)

theorem seenAs_iff (hgranularity : options.granularity = .function) :
    options.SeenAs method.call u ↔
      ¬ method.IsFramework ∧ method.call.identity = u.identity := by
  rw [Options.SeenAs, hgranularity, ← inLibrary_iff, Bool.not_eq_true]
  simp [Call.at?]

theorem readHalf_of_afterMark? {half : List Char} (hdense : ∀ c ∈ half, ¬ Text.isBlank c)
    (hmark : afterMark? half = some method.text) :
    readHalf (String.ofList half) = .ok method.call := by
  have hhalf : Text.trim half = half := Text.trim_of_forall_not_isBlank hdense
  have hbody : Text.trim method.text = method.text :=
    Text.trim_of_forall_not_isBlank fun _ => not_isBlank_of_mem_text
  have hsplit : Text.splitAtFirst ':' method.text = some (method.className, method.name) :=
    Text.splitAtFirst_append method.class_plain method.name
  obtain ⟨c, rest, hname⟩ := List.exists_cons_of_ne_nil method.name_nonempty
  rw [hname] at hsplit
  simp only [readHalf, String.toList_ofList, hhalf, hmark, hbody, hsplit, call, hname]

end Method

/-! ## Records -/

namespace Record

variable (record : Record)

theorem not_isBlank_of_mem_callerText {c : Char} (h : c ∈ record.callerText) :
    ¬ Text.isBlank c := by
  rcases List.mem_cons.1 h with rfl | h
  · decide
  · rcases List.mem_cons.1 h with rfl | h
    · decide
    · exact Method.not_isBlank_of_mem_text h

theorem not_isBlank_of_mem_calleeText {c : Char} (h : c ∈ record.calleeText) :
    ¬ Text.isBlank c := by
  have hkinds : ∀ kind ∈ invocationKinds, ¬ Text.isBlank kind :=
    List.any_eq_false.1 (by decide)
  simp only [calleeText, List.mem_cons] at h
  rcases h with rfl | rfl | rfl | h
  · decide
  · exact hkinds record.kind record.kind_mem
  · decide
  · exact Method.not_isBlank_of_mem_text h

theorem not_isBlank_of_getLast? {c : Char} (hc : c ∈ record.text.getLast?) :
    ¬ Text.isBlank c := by
  have hname : record.text.getLast? = record.callee.name.getLast? := by
    obtain ⟨c, rest, hcons⟩ := List.exists_cons_of_ne_nil record.callee.name_nonempty
    simp only [text, calleeText, Method.text, hcons, List.getLast?_append, List.getLast?_cons]
    simp
  rw [hname] at hc
  exact record.callee.name_dense c (List.mem_of_getLast? hc)

theorem isLine_text : Text.IsLine '\n' '\r' record.text := by
  refine ⟨fun hbreak => ?_, fun hlast => ?_⟩
  · rcases List.mem_append.1 hbreak with hcaller | hcallee
    · exact record.not_isBlank_of_mem_callerText hcaller (by decide)
    · rcases List.mem_cons.1 hcallee with hspace | hcallee
      · exact absurd hspace (by decide)
      · exact record.not_isBlank_of_mem_calleeText hcallee (by decide)
  · exact record.not_isBlank_of_getLast? hlast (by decide)

theorem dropLineBreaks_text : Text.dropLineBreaks record.text = record.text :=
  Text.dropLineBreaks_of_getLast? fun _ => record.not_isBlank_of_getLast?

theorem readLine_line :
    readLine record.line = .ok (record.caller.call, record.callee.call) := by
  have hspace : ' ' ∉ record.callerText := fun h =>
    record.not_isBlank_of_mem_callerText h (by decide)
  have hsplit : Text.splitAtFirst ' ' record.text = some (record.callerText, record.calleeText) :=
    Text.splitAtFirst_append hspace record.calleeText
  have hcaller : readHalf (String.ofList record.callerText) = .ok record.caller.call :=
    Method.readHalf_of_afterMark? (fun _ => record.not_isBlank_of_mem_callerText) rfl
  have hcallee : readHalf (String.ofList record.calleeText) = .ok record.callee.call := by
    refine Method.readHalf_of_afterMark? (fun _ => record.not_isBlank_of_mem_calleeText) ?_
    exact if_pos (List.contains_iff_mem.2 record.kind_mem)
  simp only [readLine, line, String.toList_ofList, record.dropLineBreaks_text, hsplit, hcaller,
    hcallee]
  rfl

theorem isWanted_line : isWanted packages record.line ↔ record.IsAbout packages := by
  have hline : record.line.toList = record.text := String.toList_ofList
  have hmarked : "M:".toList <+: record.text := ⟨_, rfl⟩
  rw [isWanted_iff, hline, and_iff_right hmarked, IsAbout]

end Record

/-! ## Listings -/

/-- A listing is read line by line as it was printed, if no line between the records holds a break
and the last line is not empty. -/
theorem allLines_render (files : FileTree)
    (hothers : ∀ line unmarked, .other line unmarked ∈ entries → Text.IsLine '\n' '\r' line.toList)
    (hlast : (entries.map Entry.line).getLast? ≠ some "") :
    Source.allLines files (.text (render entries)) = .ok (entries.map Entry.line) := by
  have hlines : ∀ line ∈ entries.map Entry.line, Text.IsLine '\n' '\r' line.toList := by
    refine List.forall_mem_map.2 fun entry hentry => ?_
    cases entry with
    | call record =>
      have hline : record.line.toList = record.text := String.toList_ofList
      exact hline ▸ record.isLine_text
    | other line unmarked => exact hothers line unmarked hentry
  have hread : Text.textLines (render entries) = entries.map Entry.line :=
    Text.textLines_intercalate hlines hlast
  rw [Source.allLines, Source.read, hread]

theorem mem_events_trace : event ∈ (trace packages lines).events ↔
    ∃ line ∈ lines, isWanted packages line ∧ ∃ caller callee,
      readLine line = .ok (caller, callee) ∧ event = .call caller callee := by
  constructor
  · intro h
    obtain ⟨⟨line, number⟩, hmem, hshown⟩ := List.mem_filterMap.1 h
    obtain ⟨hnumbered, hwanted⟩ := List.mem_filter.1 hmem
    refine ⟨line, List.fst_mem_of_mem_zipIdx hnumbered, hwanted, ?_⟩
    simp only at hshown
    split at hshown
    · rename_i caller callee hread
      cases hshown
      exact ⟨caller, callee, hread, rfl⟩
    · cases hshown
  · rintro ⟨line, hline, hwanted, caller, callee, hread, rfl⟩
    rw [← List.zipIdx_map_fst 1 lines] at hline
    obtain ⟨⟨line, number⟩, hnumbered, rfl⟩ := List.mem_map.1 hline
    exact List.mem_filterMap.2
      ⟨(line, number), List.mem_filter.2 ⟨hnumbered, hwanted⟩, by simp only [hread]⟩

/-- More packages keep all lines that fewer of them keep. -/
theorem isWanted_mono {line : String} (hpackages : packages ≠ []) (hmore : packages ⊆ more)
    (h : isWanted packages line) : isWanted more line := by
  rw [isWanted_iff] at h ⊢
  obtain ⟨hmark, habout⟩ := h
  obtain ⟨package, hmem, hpart⟩ := habout.resolve_left hpackages
  exact ⟨hmark, .inr ⟨package, hmore hmem, hpart⟩⟩

theorem events_mono (hpackages : packages ≠ []) (hmore : packages ⊆ more) :
    (trace packages lines).events ⊆ (trace more lines).events := by
  intro event hevent
  obtain ⟨line, hline, hwanted, hread⟩ := mem_events_trace.1 hevent
  exact mem_events_trace.2 ⟨line, hline, isWanted_mono hpackages hmore hwanted, hread⟩

theorem Entry.isWanted_line {entry : Entry} : isWanted packages entry.line ↔
    ∃ record, entry = .call record ∧ record.IsAbout packages := by
  cases entry with
  | call record => simp [Entry.line, record.isWanted_line]
  | other line unmarked =>
    refine iff_of_false (fun h => unmarked (isWanted_iff.1 h).1) ?_
    rintro ⟨record, ⟨⟩, -⟩

theorem mem_events_entries : event ∈ (trace packages (entries.map Entry.line)).events ↔
    ∃ caller callee, Calls packages entries caller callee ∧
      event = .call caller.call callee.call := by
  rw [mem_events_trace]
  constructor
  · rintro ⟨_, hline, hwanted, caller, callee, hread, rfl⟩
    obtain ⟨entry, hentry, rfl⟩ := List.mem_map.1 hline
    obtain ⟨record, rfl, habout⟩ := Entry.isWanted_line.1 hwanted
    cases record.readLine_line.symm.trans hread
    exact ⟨_, _, ⟨record, hentry, habout, rfl, rfl⟩, rfl⟩
  · rintro ⟨_, _, ⟨record, hentry, habout, rfl, rfl⟩, rfl⟩
    exact ⟨record.line, List.mem_map_of_mem hentry, record.isWanted_line.2 habout, _, _,
      record.readLine_line, rfl⟩

theorem errors_entries : (trace packages (entries.map Entry.line)).errors = [] := by
  rw [List.eq_nil_iff_forall_not_mem]
  intro e he
  have herror : e ∈ ((Format.javaCalls packages).trace (entries.map Entry.line)).errors := he
  obtain ⟨above, line, below, fault, hlines, ⟨hwanted, hread⟩, -⟩ :=
    Format.mem_errors_iff.1 herror
  have hline : line ∈ entries.map Entry.line := by
    rw [hlines]
    exact List.mem_append_right _ List.mem_cons_self
  obtain ⟨entry, -, rfl⟩ := List.mem_map.1 hline
  obtain ⟨record, rfl, -⟩ := Entry.isWanted_line.1 (isWanted_iff.2 hwanted)
  cases record.readLine_line.symm.trans hread

/-! ## What the graph of a listing shows -/

section

variable {α : Type} {files : FileTree} {source : Source} {describe : String}

theorem edgeShows_call_entries (hgranularity : options.granularity = .function) :
    (CallGraph.ofEvents describe .javacg options
      (trace packages (entries.map Entry.line)).events : CallGraph α).edgeShows .call u v ↔
      ∃ caller callee, Calls packages entries caller callee ∧
        ¬ caller.IsFramework ∧ ¬ callee.IsFramework ∧
        caller.call.identity = u.identity ∧ callee.call.identity = v.identity := by
  rw [CallGraph.edgeShows_call_ofEvents]
  constructor
  · rintro ⟨_, _, hevent, hu, hv⟩
    obtain ⟨caller, callee, hcalls, ⟨⟩⟩ := mem_events_entries.1 hevent
    obtain ⟨hcaller, hu⟩ := (Method.seenAs_iff hgranularity).1 hu
    obtain ⟨hcallee, hv⟩ := (Method.seenAs_iff hgranularity).1 hv
    exact ⟨caller, callee, hcalls, hcaller, hcallee, hu, hv⟩
  · rintro ⟨caller, callee, hcalls, hcaller, hcallee, hu, hv⟩
    exact ⟨_, _, mem_events_entries.2 ⟨caller, callee, hcalls, rfl⟩,
      (Method.seenAs_iff hgranularity).2 ⟨hcaller, hu⟩,
      (Method.seenAs_iff hgranularity).2 ⟨hcallee, hv⟩⟩

/-- A mark that the framework methods of a table give is on the methods that call one of them. -/
theorem nodeShows_mark_entries (hgranularity : options.granularity = .function) (mark : Mark)
    {gives : Call → Bool} {table : List String}
    (own : ∀ call, (observed .javacg options call : NodeAttrs α).shows (.mark mark) = false)
    (given : ∀ caller callee, (observedCaller .javacg options caller callee :
      NodeAttrs α).shows (.mark mark) = gives callee)
    (hgives : ∀ callee : Method,
      gives callee.call ↔ callee.IsFramework ∧ callee.IsListed table) (method : Method) :
    (CallGraph.ofEvents describe .javacg options
      (trace packages (entries.map Entry.line)).events : CallGraph α).nodeShows (.mark mark)
        method.call ↔
      ¬ method.IsFramework ∧ ∃ callee, Calls packages entries method callee ∧
        callee.IsFramework ∧ callee.IsListed table := by
  rw [CallGraph.nodeShows_mark_ofEvents mark own given]
  constructor
  · rintro ⟨_, _, hevent, hseen, hmark⟩
    obtain ⟨caller, callee, hcalls, ⟨⟩⟩ := mem_events_entries.1 hevent
    obtain ⟨hcaller, hsame⟩ := (Method.seenAs_iff hgranularity).1 hseen
    rw [Method.call_identity_inj.1 hsame] at hcaller hcalls
    exact ⟨hcaller, callee, hcalls, (hgives callee).1 hmark⟩
  · rintro ⟨hcaller, callee, hcalls, hmark⟩
    exact ⟨_, _, mem_events_entries.2 ⟨method, callee, hcalls, rfl⟩,
      (Method.seenAs_iff hgranularity).2 ⟨hcaller, rfl⟩, (hgives callee).2 hmark⟩

/-- A listing of records is loaded without errors. Its call edges are the calls that the records
about the packages tell of between methods of the application, and a call of the framework marks
its caller instead. More packages show more of the application. -/
theorem load_entries (hread : source.allLines files = .ok (entries.map Entry.line))
    (hgranularity : options.granularity = .function) (packages : List String) :
    ∃ g : CallGraph α, load files source packages options = .ok g ∧ g.errors = [] ∧
      (∀ u v, g.edgeShows .call u v ↔ ∃ caller callee, Calls packages entries caller callee ∧
        ¬ caller.IsFramework ∧ ¬ callee.IsFramework ∧
        caller.call.identity = u.identity ∧ callee.call.identity = v.identity) ∧
      (∀ method : Method, g.nodeShows (.mark .entry) method.call ↔
        ¬ method.IsFramework ∧ ∃ callee, Calls packages entries method callee ∧
          callee.IsFramework ∧ callee.IsListed Library.Android.inputs) ∧
      (∀ method : Method, g.nodeShows (.mark .exit) method.call ↔
        ¬ method.IsFramework ∧ ∃ callee, Calls packages entries method callee ∧
          callee.IsFramework ∧ callee.IsListed Library.Android.outputs) ∧
      ∀ more, packages ≠ [] → packages ⊆ more →
        ∃ wider : CallGraph α, load files source more options = .ok wider ∧ g.IsSubgraph wider := by
  have hload (packages : List String) : (load files source packages options :
      Except LoadError (CallGraph α)) = .ok (.ofTrace source.describe .javacg options
        (trace packages (entries.map Entry.line))) := by
    rw [load, hread]
    rfl
  refine ⟨_, hload packages, errors_entries, fun u v => edgeShows_call_entries hgranularity,
    nodeShows_mark_entries hgranularity .entry (fun _ => rfl) (fun _ _ => rfl)
      fun _ => Method.isInput_iff,
    nodeShows_mark_entries hgranularity .exit (fun _ => rfl) (fun _ _ => rfl)
      fun _ => Method.isOutput_iff,
    fun more hpackages hmore => ⟨_, hload more, ?_⟩⟩
  exact CallGraph.isSubgraph_ofTrace (events_mono hpackages hmore)

end

/-! A listing of an application that greets. -/

def onCreate : Method where
  className := "com.example.Main".toList
  name := "onCreate".toList
  class_dense := List.any_eq_false.1 (by decide)
  class_plain := by decide
  name_dense := List.any_eq_false.1 (by decide)
  name_nonempty := by decide

def greet : Method where
  className := "com.example.Greeter".toList
  name := "greet".toList
  class_dense := List.any_eq_false.1 (by decide)
  class_plain := by decide
  name_dense := List.any_eq_false.1 (by decide)
  name_nonempty := by decide

def startActivity : Method where
  className := "android.content.Context".toList
  name := "startActivity".toList
  class_dense := List.any_eq_false.1 (by decide)
  class_plain := by decide
  name_dense := List.any_eq_false.1 (by decide)
  name_nonempty := by decide

def greetings : List Entry := [
  .other "C:com.example.Main android.app.Activity" (by decide),
  .call ⟨onCreate, 'M', greet, by decide⟩,
  .call ⟨greet, 'O', startActivity, by decide⟩]

theorem load_greetings :
    Source.allLines [] (.text (render greetings)) = .ok (greetings.map Entry.line) ∧
    ∃ g wider : CallGraph Rat,
      load [] (.text (render greetings)) ["com.example"] {} = .ok g ∧
      load [] (.text (render greetings)) ["org.example", "com.example"] {} = .ok wider ∧
      g.errors = [] ∧ g.edgeShows .call onCreate.call greet.call ∧
      g.nodeShows (.mark .exit) greet.call ∧ g.IsSubgraph wider := by
  have hread : Source.allLines [] (.text (render greetings)) = .ok (greetings.map Entry.line) := by
    refine allLines_render [] (fun line unmarked hmem => ?_) (by decide)
    simp only [greetings, List.mem_cons, List.not_mem_nil, Entry.other.injEq, reduceCtorEq,
      or_false] at hmem
    rw [hmem]
    decide
  have hgranularity : ({} : Options).granularity = .function := rfl
  obtain ⟨g, hload, herrors, hcalls, -, hexit, hmore⟩ :=
    load_entries (α := Rat) hread hgranularity ["com.example"]
  obtain ⟨wider, hwider, hsubgraph⟩ :=
    hmore ["org.example", "com.example"] (by decide) (by decide)
  have happlication : ¬ onCreate.IsFramework ∧ ¬ greet.IsFramework ∧ startActivity.IsFramework := by
    unfold Method.IsFramework
    decide
  obtain ⟨honCreate, hgreet, hstart⟩ := happlication
  have hfirst : Calls ["com.example"] greetings onCreate greet :=
    ⟨_, .tail _ (.head _), .inr ⟨_, .head _, by decide⟩, rfl, rfl⟩
  have hsecond : Calls ["com.example"] greetings greet startActivity :=
    ⟨_, .tail _ (.tail _ (.head _)), .inr ⟨_, .head _, by decide⟩, rfl, rfl⟩
  refine ⟨hread, g, wider, hload, hwider, herrors, ?_, ?_, hsubgraph⟩
  · exact (hcalls _ _).2 ⟨_, _, hfirst, honCreate, hgreet, rfl, rfl⟩
  · exact (hexit greet).2 ⟨hgreet, _, hsecond, hstart, "startActivity", by decide, .inl rfl⟩

end AttackSurface.JavaCalls
