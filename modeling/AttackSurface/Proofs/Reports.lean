import AttackSurface.Proofs.Formats
import Mathlib.Data.List.Induction

/-! What a load reports. Whether a line has to be readable depends on the lines above it alone, so
that one line more adds at most its own error, with its number, and takes none away. -/
namespace AttackSurface

/-- Does the line hold white space only? -/
def IsBlank (line : String) : Prop := ∀ c ∈ line.toList, Text.isBlank c

/-- Has the call graph of a report begun, but not ended, above a line? -/
def Gprof.IsOpen (above : List String) : Prop :=
  ∃ before first after, above = before ++ first :: after ∧
    (∀ line ∈ before, isHeader line = false) ∧ isHeader first ∧
      ∀ line ∈ after, isSentinel line = false

/-- What is wrong with a line, if it has to be readable where it stands. -/
def Format.Faulty (format : Format) (above : List String) (line : String) (fault : LineError) :
    Prop :=
  match format with
  | .cflow _ => ¬ IsBlank line ∧ Cflow.readLine line = .error fault
  | .gprof =>
    (Gprof.IsOpen above ∧ Gprof.isSeparator line = false ∧ ¬ IsBlank line) ∧
      Gprof.readLine line = .error fault
  | .javaCalls packages =>
    ("M:".toList <+: line.toList ∧
        (packages = [] ∨ ∃ package ∈ packages, package.toList <:+: line.toList)) ∧
      JavaCalls.readLine line = .error fault

/-! ## Lines that are read one after the other -/

section

variable {β : Type} {numbered selected : List (String × Nat)}
  {line : String} {number : Nat} {Wanted : Prop}

/-- The errors of the lines that can not be read. -/
def faultsOf (read : String → Except LineError β) (numbered : List (String × Nat)) :
    List LineError :=
  numbered.filterMap fun (line, number) =>
    match read line with
    | .ok _ => none
    | .error e => some (e.atLine number)

theorem zipIdx_concat (above : List String) (line : String) :
    (above ++ [line]).zipIdx 1 = above.zipIdx 1 ++ [(line, above.length + 1)] := by
  rw [List.zipIdx_append, Nat.add_comm]
  rfl

/-- A selection of lines takes the next one if that is wanted, and nothing else. -/
theorem filter_concat {p : String → Bool} (hp : p line ↔ Wanted) (numbered : List (String × Nat))
    (number : Nat) :
    Wanted ∧ ((numbered ++ [(line, number)]).filter fun line => p line.1) =
        (numbered.filter fun line => p line.1) ++ [(line, number)] ∨
      ¬ Wanted ∧ ((numbered ++ [(line, number)]).filter fun line => p line.1) =
        numbered.filter fun line => p line.1 := by
  cases hline : p line with
  | true => exact .inl ⟨hp.1 hline, by simp [hline]⟩
  | false => exact .inr ⟨fun h => by simp [hp.2 h] at hline, by simp [hline]⟩

theorem faultsOf_concat (read : String → Except LineError β)
    (hselected : Wanted ∧ selected = numbered ++ [(line, number)] ∨
      ¬ Wanted ∧ selected = numbered) :
    (∃ fault, (Wanted ∧ read line = .error fault) ∧
        faultsOf read selected = faultsOf read numbered ++ [fault.atLine number]) ∨
      (∀ fault, ¬ (Wanted ∧ read line = .error fault)) ∧
        faultsOf read selected = faultsOf read numbered := by
  rcases hselected with ⟨hwanted, rfl⟩ | ⟨hunwanted, rfl⟩
  · cases hread : read line with
    | ok found => exact .inr ⟨fun fault h => (by cases h.2), by simp [faultsOf, hread]⟩
    | error fault => exact .inl ⟨fault, ⟨hwanted, rfl⟩, by simp [faultsOf, hread]⟩
  · exact .inr ⟨fun fault h => hunwanted h.1, rfl⟩

end

/-! ## Which lines have to be readable -/

theorem Cflow.isBlankLine_iff {line : String} : isBlankLine line ↔ IsBlank line := List.all_eq_true

theorem Cflow.lineErrors_eq_faultsOf (lines : List String) :
    lineErrors lines =
      faultsOf readLine ((lines.zipIdx 1).filter fun line => !isBlankLine line.1) := by
  rw [faultsOf, List.filterMap_filter, lineErrors]
  refine List.filterMap_congr ?_
  rintro ⟨line, number⟩ -
  cases hblank : isBlankLine line <;> cases hread : readLine line <;> simp [hblank, hread]

namespace Gprof

variable {line : String} {above : List String} {numbered : List (String × Nat)} {number : Nat}

theorem lineErrors_eq_faultsOf (numbered : List (String × Nat)) :
    lineErrors numbered =
      faultsOf readLine (numbered.filter fun line => isFunctionLine line.1) := by
  rw [faultsOf, List.filterMap_filter, lineErrors]
  refine List.filterMap_congr ?_
  rintro ⟨line, number⟩ -
  cases hfunction : isFunctionLine line <;> cases hread : readLine line <;>
    simp [hfunction, hread]

theorem isEmptyLine_iff : isEmptyLine line ↔ IsBlank line := by
  rw [isEmptyLine, decide_eq_true_iff, Text.trimEnd, Text.dropEndWhile_eq_nil_iff, IsBlank]

theorem isFunctionLine_iff :
    isFunctionLine line ↔ isSeparator line = false ∧ ¬ IsBlank line := by
  rw [isFunctionLine, Bool.and_eq_true, Bool.not_eq_true', Bool.not_eq_true', ← isEmptyLine_iff,
    Bool.not_eq_true]

/-- The form feed that ends a call graph is white space itself. -/
theorem isBlank_of_isSentinel (h : isSentinel line) : IsBlank line := by
  obtain ⟨run, hline, hrun⟩ :=
    Text.exists_dropped (fun c => c == '\n' || c == '\r') line.toList
  have hkept : Text.dropLineBreaks line.toList = ['\x0c'] := of_decide_eq_true h
  rw [Text.dropLineBreaks] at hkept
  intro c hc
  rw [hline, hkept] at hc
  rcases List.mem_cons.1 hc with rfl | hmem
  · decide
  · exact Text.isBlank_of_isBreak (hrun c hmem)

theorem isOpen_iff : IsOpen above ↔
    ∃ first after, (above.dropWhile fun line => !isHeader line) = first :: after ∧
      ∀ line ∈ after, isSentinel line = false := by
  constructor
  · rintro ⟨before, first, after, rfl, hbefore, hfirst, hafter⟩
    refine ⟨first, after, ?_, hafter⟩
    rw [List.dropWhile_append_of_pos fun line hline => by simp [hbefore line hline],
      List.dropWhile_cons_of_neg (by simp [hfirst])]
  · rintro ⟨first, after, hdropped, hafter⟩
    refine ⟨above.takeWhile fun line => !isHeader line, first, after, ?_, ?_, ?_, hafter⟩
    · rw [← hdropped, List.takeWhile_append_dropWhile]
    · intro line hline
      simpa using List.mem_takeWhile_imp hline
    · have hhead := List.head?_dropWhile_not (fun line => !isHeader line) above
      simpa [hdropped] using hhead

theorem isOpen_map_iff : IsOpen (numbered.map (·.1)) ↔ ∃ first after,
    (numbered.dropWhile fun line => !isHeader line.1) = first :: after ∧
      ∀ line ∈ after, isSentinel line.1 = false := by
  rw [isOpen_iff, List.dropWhile_map]
  constructor
  · rintro ⟨_, _, hdropped, hafter⟩
    obtain ⟨first, after, hfirst, -, rfl⟩ := List.map_eq_cons_iff.1 hdropped
    exact ⟨first, after, hfirst, List.forall_mem_map.1 hafter⟩
  · rintro ⟨first, after, hdropped, hafter⟩
    refine ⟨first.1, after.map (·.1), ?_, List.forall_mem_map.2 hafter⟩
    rw [← List.map_cons, ← hdropped]
    rfl

/-- A line more is one of the call graph if that is open above it and it does not end it. -/
theorem graphLines_concat (numbered : List (String × Nat)) (last : String × Nat) :
    IsOpen (numbered.map (·.1)) ∧ graphLines (numbered ++ [last]) =
        graphLines numbered ++ [last].takeWhile (fun line => !isSentinel line.1) ∨
      ¬ IsOpen (numbered.map (·.1)) ∧ graphLines (numbered ++ [last]) = graphLines numbered := by
  rw [isOpen_map_iff, graphLines, graphLines, afterHeader, afterHeader, List.dropWhile_append]
  cases hdropped : numbered.dropWhile fun line => !isHeader line.1 with
  | nil =>
    have hnone : ([last].dropWhile fun line => !isHeader line.1).drop 1 = [] := by
      rw [List.dropWhile_cons]
      split <;> rfl
    exact .inr ⟨by simp, by simp [hnone]⟩
  | cons first after =>
    by_cases hopen : ∀ line ∈ after, isSentinel line.1 = false
    · refine .inl ⟨⟨first, after, rfl, hopen⟩, ?_⟩
      have hall : ∀ line ∈ after, (!isSentinel line.1) = true := fun line hline => by
        simp [hopen line hline]
      simp [List.takeWhile_append_of_pos hall, List.takeWhile_eq_self_iff.2 hall]
    · refine .inr ⟨?_, ?_⟩
      · rintro ⟨_, _, ⟨⟩, hafter⟩
        exact hopen hafter
      · have hcut : (after.takeWhile fun line => !isSentinel line.1).length ≠ after.length := by
          intro hlength
          refine hopen fun line hline => ?_
          rw [← (List.takeWhile_prefix _).eq_of_length hlength] at hline
          simpa using List.mem_takeWhile_imp hline
        simp [List.takeWhile_append, hcut]

theorem functionLines_concat (above : List String) (line : String) :
    (IsOpen above ∧ isSeparator line = false ∧ ¬ IsBlank line) ∧
        ((graphLines ((above ++ [line]).zipIdx 1)).filter fun line => isFunctionLine line.1) =
          ((graphLines (above.zipIdx 1)).filter fun line => isFunctionLine line.1) ++
            [(line, above.length + 1)] ∨
      ¬ (IsOpen above ∧ isSeparator line = false ∧ ¬ IsBlank line) ∧
        ((graphLines ((above ++ [line]).zipIdx 1)).filter fun line => isFunctionLine line.1) =
          (graphLines (above.zipIdx 1)).filter fun line => isFunctionLine line.1 := by
  have hstep := graphLines_concat (above.zipIdx 1) (line, above.length + 1)
  rw [List.zipIdx_map_fst] at hstep
  rw [zipIdx_concat]
  rcases hstep with ⟨hopen, hlines⟩ | ⟨hclosed, hlines⟩
  · rw [hlines]
    cases hsentinel : isSentinel line with
    | true =>
      refine .inr ⟨fun h => h.2.2 (isBlank_of_isSentinel hsentinel), ?_⟩
      simp [hsentinel]
    | false =>
      have hwanted : isFunctionLine line ↔
          IsOpen above ∧ isSeparator line = false ∧ ¬ IsBlank line := by
        rw [isFunctionLine_iff]
        exact (and_iff_right hopen).symm
      simpa [hsentinel] using
        filter_concat hwanted (graphLines (above.zipIdx 1)) (above.length + 1)
  · exact .inr ⟨fun h => hclosed h.1, by rw [hlines]⟩

end Gprof

theorem JavaCalls.isWanted_iff {packages : List String} {line : String} :
    isWanted packages line ↔ "M:".toList <+: line.toList ∧
      (packages = [] ∨ ∃ package ∈ packages, package.toList <:+: line.toList) := by
  simp only [isWanted, Bool.and_eq_true, Bool.or_eq_true, Text.isSome_after?, List.isEmpty_iff,
    List.any_eq_true, Text.occurs_iff]
  rfl

theorem JavaCalls.errors_trace_eq_faultsOf (packages lines : List String) :
    (trace packages lines).errors =
      faultsOf readLine ((lines.zipIdx 1).filter fun line => isWanted packages line.1) := by
  rw [faultsOf, trace]
  refine List.filterMap_congr ?_
  rintro ⟨line, number⟩ -
  cases hread : readLine line <;> simp [hread]

/-! ## What is reported -/

namespace Format

variable {format : Format} {lines : List String} {e : LineError}

/-- One line more is reported if it is faulty, with its number, and nothing else changes. -/
theorem errors_concat (format : Format) (above : List String) (line : String) :
    (∃ fault, format.Faulty above line fault ∧ (format.trace (above ++ [line])).errors =
        (format.trace above).errors ++ [fault.atLine (above.length + 1)]) ∨
      (∀ fault, ¬ format.Faulty above line fault) ∧
        (format.trace (above ++ [line])).errors = (format.trace above).errors := by
  cases format with
  | cflow reverse =>
    have hwanted : (!Cflow.isBlankLine line) ↔ ¬ IsBlank line := by
      rw [← Cflow.isBlankLine_iff, Bool.not_eq_true', Bool.not_eq_true]
    have hstep := faultsOf_concat Cflow.readLine
      (filter_concat (p := fun line => !Cflow.isBlankLine line) hwanted (above.zipIdx 1)
        (above.length + 1))
    rw [← zipIdx_concat, ← Cflow.lineErrors_eq_faultsOf, ← Cflow.lineErrors_eq_faultsOf] at hstep
    exact hstep
  | gprof =>
    have hstep := faultsOf_concat Gprof.readLine (Gprof.functionLines_concat above line)
    rw [← Gprof.lineErrors_eq_faultsOf, ← Gprof.lineErrors_eq_faultsOf] at hstep
    exact hstep
  | javaCalls packages =>
    have hwanted : JavaCalls.isWanted packages line ↔ "M:".toList <+: line.toList ∧
        (packages = [] ∨ ∃ package ∈ packages, package.toList <:+: line.toList) :=
      JavaCalls.isWanted_iff
    have hstep := faultsOf_concat JavaCalls.readLine
      (filter_concat hwanted (above.zipIdx 1) (above.length + 1))
    rw [← zipIdx_concat, ← JavaCalls.errors_trace_eq_faultsOf,
      ← JavaCalls.errors_trace_eq_faultsOf] at hstep
    exact hstep

/-- A line of a text with one more at its end is that one, or a line of the text. -/
theorem last_or_before {β : Type} {xs above below : List β} {x y : β}
    (h : xs ++ [x] = above ++ y :: below) :
    above = xs ∧ y = x ∨ ∃ rest, xs = above ++ y :: rest := by
  rcases List.append_eq_append_iff.1 h with ⟨more, rfl, hx⟩ | ⟨rest, rfl, hy⟩
  · cases more with
    | nil => exact .inl ⟨List.append_nil xs, (List.cons.inj hx).1.symm⟩
    | cons z more => simp at hx
  · cases rest with
    | nil => exact .inl ⟨(List.append_nil above).symm, (List.cons.inj hy).1⟩
    | cons z rest => exact .inr ⟨rest, by rw [(List.cons.inj hy).1]⟩

theorem Faulty.unique {above : List String} {line : String} {fault other : LineError}
    (h : format.Faulty above line fault) (ho : format.Faulty above line other) : fault = other := by
  cases format <;> exact Except.error.inj (h.2.symm.trans ho.2)

theorem errors_nil (format : Format) : (format.trace []).errors = [] := by
  cases format <;> rfl

/-- The errors of a text are those of its faulty lines, each with its number. -/
theorem mem_errors_iff : e ∈ (format.trace lines).errors ↔
    ∃ above line below fault, lines = above ++ line :: below ∧ format.Faulty above line fault ∧
      e = fault.atLine (above.length + 1) := by
  induction lines using List.reverseRecOn with
  | nil => simp [errors_nil]
  | append_singleton lines last ih =>
    have hlast : e ∈ (format.trace (lines ++ [last])).errors ↔
        e ∈ (format.trace lines).errors ∨
          ∃ fault, format.Faulty lines last fault ∧ e = fault.atLine (lines.length + 1) := by
      rcases format.errors_concat lines last with ⟨fault, hfault, herrors⟩ | ⟨hnone, herrors⟩
      · have honly : (∃ other, format.Faulty lines last other ∧
            e = other.atLine (lines.length + 1)) ↔ e = fault.atLine (lines.length + 1) := by
          constructor
          · rintro ⟨other, hother, rfl⟩
            rw [hother.unique hfault]
          · exact fun he => ⟨fault, hfault, he⟩
        rw [herrors, List.mem_append, List.mem_singleton, honly]
      · simp [herrors, hnone]
    rw [hlast, ih]
    constructor
    · rintro (⟨above, line, rest, fault, rfl, hfault⟩ | ⟨fault, hfault⟩)
      · exact ⟨above, line, rest ++ [last], fault, by simp, hfault⟩
      · exact ⟨lines, last, [], fault, rfl, hfault⟩
    · rintro ⟨above, line, below, fault, hlines, hfault⟩
      rcases last_or_before hlines with ⟨rfl, rfl⟩ | ⟨rest, rfl⟩
      · exact .inr ⟨fault, hfault⟩
      · exact .inl ⟨above, line, rest, fault, rfl, hfault⟩

/-- The numbers ascend, and none is beyond the last line. -/
theorem errors_ascending (format : Format) (lines : List String) :
    ((format.trace lines).errors.Pairwise fun a b => a.line < b.line) ∧
      ∀ e ∈ (format.trace lines).errors, e.line ≤ lines.length := by
  induction lines using List.reverseRecOn with
  | nil => simp [errors_nil]
  | append_singleton lines last ih =>
    obtain ⟨hascending, hbound⟩ := ih
    rw [List.length_append, List.length_singleton]
    rcases format.errors_concat lines last with ⟨fault, -, herrors⟩ | ⟨-, herrors⟩
    · rw [herrors, List.pairwise_append, List.forall_mem_append]
      refine ⟨⟨hascending, List.pairwise_singleton .., fun e he new hnew => ?_⟩, fun e he => ?_, ?_⟩
      · rw [List.mem_singleton.1 hnew]
        exact Nat.lt_succ_of_le (hbound e he)
      · exact Nat.le_succ_of_le (hbound e he)
      · exact List.forall_mem_singleton.2 le_rfl
    · rw [herrors]
      exact ⟨hascending, fun e he => Nat.le_succ_of_le (hbound e he)⟩

variable {α : Type} {files : FileTree} {source : Source}

theorem listing_text (format : Format) (files : FileTree) (content : String) :
    format.listing files (.text content) = .ok (Text.textLines content) := by
  cases format <;> rfl

/-- No line keeps a load from giving a graph. Its errors are those of the faulty lines, each of them
once and in their order, with their numbers among all lines of the text. -/
theorem load_reports_faulty (format : Format) (options : Options)
    (hread : format.listing files source = .ok lines) :
    ∃ g : CallGraph α, format.load files source options = .ok g ∧
      (g.errors.Pairwise fun a b => a.line < b.line) ∧
      ∀ e, e ∈ g.errors ↔ ∃ above line below fault, lines = above ++ line :: below ∧
        format.Faulty above line fault ∧ e = fault.atLine (above.length + 1) :=
  ⟨_, load_of_listing hread options, (format.errors_ascending lines).1, fun _ => mem_errors_iff⟩

end Format

/-- A report with lines that can not be read above its header, in its call graph and below its
end. -/
def patchyLines : List String := [
  "[0]    ???", Gprof.header, "", Gprof.separator, "[1]    ???", Gprof.sentinel, "[2]    ???"]

def patchyReport : String := "\n".intercalate patchyLines

theorem errors_of_patchyReport :
    Format.gprof.listing [] (.text patchyReport) = .ok patchyLines ∧
    ∃ g : CallGraph Rat, Format.gprof.load [] (.text patchyReport) {} = .ok g ∧
      (g.errors.Pairwise fun a b => a.line < b.line) ∧
      ⟨.gprof, .missing "name", "[1]    ???", 5⟩ ∈ g.errors := by
  have hread : Format.gprof.listing [] (.text patchyReport) = .ok patchyLines := by
    rw [Format.listing_text, patchyReport, Text.textLines_intercalate (by decide) (by decide)]
  obtain ⟨g, hload, hascending, hmem⟩ := Format.gprof.load_reports_faulty (α := Rat) {} hread
  have hopen : Gprof.IsOpen ["[0]    ???", Gprof.header, "", Gprof.separator] :=
    ⟨["[0]    ???"], Gprof.header, ["", Gprof.separator], rfl, by decide, by decide, by decide⟩
  have hblank : ¬ IsBlank "[1]    ???" := fun h => absurd (h '?' (by decide)) (by decide)
  refine ⟨hread, g, hload, hascending, (hmem _).2 ?_⟩
  exact ⟨_, "[1]    ???", [Gprof.sentinel, "[2]    ???"],
    ⟨.gprof, .missing "name", "[1]    ???", 0⟩, rfl,
    ⟨⟨hopen, by decide, hblank⟩, by decide⟩, rfl⟩

end AttackSurface
