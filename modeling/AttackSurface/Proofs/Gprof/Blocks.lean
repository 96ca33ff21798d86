import AttackSurface.Proofs.Formats
import Mathlib.Data.List.Basic

/-! Reports block by block. What is read of one block is gone at the next separator, so that a
report tells what each of its blocks tells, and a line that is no separator, no end and not in
brackets counts for itself alone. -/
namespace AttackSurface.Gprof

/-! ## The parts of a report -/

/-- The lines after the first header, up to the line that ends the call graph. -/
def body (lines : List String) : List String :=
  ((lines.dropWhile fun line => !isHeader line).drop 1).takeWhile fun line => !isSentinel line

/-- What stands before, between and after the separators of the call graph. -/
def blocks (lines : List String) : List (List String) := (body lines).splitOnP isSeparator

/-- No block has two lines in brackets. -/
def EachSingle (blocks : List (List String)) : Prop :=
  ∀ block ∈ blocks, (block.filter isEntryLine).length ≤ 1

/-- The functions of the lines that are not blank and can be read. -/
def functionsOf (lines : List String) : List Call :=
  (lines.filter fun line => !isEmptyLine line).filterMap fun line => (readLine line).toOption

/-- What a function tells of: it is called by the functions above it and calls those below it. -/
def entryEvents (entry : Call) (above below : List String) : List Event :=
  .node entry :: (functionsOf above).map (fun caller => .call caller entry) ++
    (functionsOf below).map fun callee => .call entry callee

/-- What a block tells of: nothing unless its line in brackets can be read. -/
def blockEvents (block : List String) : List Event :=
  match block.dropWhile fun line => !isEntryLine line with
  | [] => []
  | bracketed :: below =>
    match readLine bracketed with
    | .error _ => []
    | .ok entry => entryEvents entry (block.takeWhile fun line => !isEntryLine line) below

/-- A line that can stand in a block above or below the line in brackets. -/
structure IsPlain (line : String) : Prop where
  separator : isSeparator line = false
  sentinel : isSentinel line = false
  entry : isEntryLine line = false

variable {block above below plain before after first : List String} {others : List (List String)}
  {line : String}

theorem functionsOf_append (above below : List String) :
    functionsOf (above ++ below) = functionsOf above ++ functionsOf below := by
  simp only [functionsOf, List.filter_append, List.filterMap_append]

theorem functionsOf_cons (line : String) (below : List String) :
    functionsOf (line :: below) =
      (if isEmptyLine line then [] else (readLine line).toOption.toList) ++ functionsOf below := by
  simp only [functionsOf, List.filter_cons]
  cases isEmptyLine line with
  | true => rfl
  | false => cases hread : readLine line <;> simp [hread, Except.toOption]

/-! ## One block -/

/-- The block with one more line, which may be blank. -/
def Block.read (block : Block) (line : String) : Block :=
  if isEmptyLine line then block else block.add line

/-- Functions count as callers as long as no line in brackets was met, and then as callees. -/
def Block.withFunctions (block : Block) (functions : List Call) : Block :=
  if block.entryMet then { block with callees := block.callees ++ functions }
  else { block with callers := block.callers ++ functions }

theorem Block.foldl_read (block : Block) (hplain : ∀ line ∈ plain, isEntryLine line = false) :
    plain.foldl Block.read block = block.withFunctions (functionsOf plain) := by
  induction plain generalizing block with
  | nil =>
    obtain ⟨entry, entryMet, callers, callees⟩ := block
    cases entryMet <;> simp [withFunctions, functionsOf]
  | cons line rest ih =>
    obtain ⟨hline, hrest⟩ := List.forall_mem_cons.1 hplain
    rw [List.foldl_cons, ih _ hrest, functionsOf_cons]
    unfold Block.read
    cases isEmptyLine line with
    | true => rfl
    | false =>
      cases hread : readLine line with
      | error e => simp [add, hline, hread, Except.toOption]
      | ok call => cases hmet : block.entryMet <;>
          simp [add, withFunctions, hline, hread, hmet, Except.toOption]

theorem isEmptyLine_of_isEntryLine (h : isEntryLine line) : isEmptyLine line = false := by
  rw [← Bool.not_eq_true]
  intro hempty
  have hblank := Text.forall_of_dropEndWhile (of_decide_eq_true hempty)
  exact absurd (hblank '[' (List.mem_of_mem_head? (of_decide_eq_true h))) (by decide)

theorem block_cases (block : List String) : (∀ line ∈ block, isEntryLine line = false) ∨
    ∃ above bracketed below, block = above ++ bracketed :: below ∧
      (∀ line ∈ above, isEntryLine line = false) ∧ isEntryLine bracketed := by
  cases hfind : block.find? isEntryLine with
  | none => exact .inl fun line hline => Bool.eq_false_iff.2 (List.find?_eq_none.1 hfind line hline)
  | some bracketed =>
    obtain ⟨hentry, above, below, rfl, habove⟩ := List.find?_eq_some_iff_append.1 hfind
    exact .inr ⟨above, bracketed, below, rfl, fun line hline => by simpa using habove line hline,
      hentry⟩

theorem blockEvents_of_plain (hplain : ∀ line ∈ block, isEntryLine line = false) :
    blockEvents block = [] := by
  have hnone : (block.dropWhile fun line => !isEntryLine line) = [] :=
    List.dropWhile_eq_nil_iff.2 fun line hline => by simp [hplain line hline]
  rw [blockEvents, hnone]

theorem blockEvents_of_entry {bracketed : String}
    (habove : ∀ line ∈ above, isEntryLine line = false) (hentry : isEntryLine bracketed) :
    blockEvents (above ++ bracketed :: below) =
      match readLine bracketed with
      | .error _ => []
      | .ok entry => entryEvents entry above below := by
  have hplain : ∀ line ∈ above, (!isEntryLine line) = true := fun line hline => by
    simp [habove line hline]
  rw [blockEvents, List.takeWhile_append_of_pos hplain, List.dropWhile_append_of_pos hplain,
    List.takeWhile_cons_of_neg (by simp [hentry]), List.dropWhile_cons_of_neg (by simp [hentry]),
    List.append_nil]

/-- What is read of a block tells what the block tells. -/
theorem Block.events_foldl_read (single : (block.filter isEntryLine).length ≤ 1) :
    (block.foldl Block.read {}).events = blockEvents block := by
  rcases block_cases block with hplain | ⟨above, bracketed, below, rfl, habove, hentry⟩
  · rw [foldl_read _ hplain, blockEvents_of_plain hplain]
    rfl
  · have hbelow : ∀ line ∈ below, isEntryLine line = false := by
      have hnone : (below.filter isEntryLine).length = 0 := by
        simp only [List.filter_append, List.filter_cons, hentry, if_true, List.length_append,
          List.length_cons] at single
        omega
      exact fun line hline => Bool.eq_false_iff.2
        (List.filter_eq_nil_iff.1 (List.length_eq_zero_iff.1 hnone) line hline)
    rw [List.foldl_append, List.foldl_cons, foldl_read _ habove, foldl_read _ hbelow,
      blockEvents_of_entry habove hentry, Block.read, isEmptyLine_of_isEntryLine hentry]
    cases hread : readLine bracketed <;>
      simp [withFunctions, add, events, entryEvents, hentry, hread]

/-! ## All blocks -/

theorem eventsFrom_cons_of_separator (block : Block) (h : isSeparator line) :
    eventsFrom block (line :: below) = block.events ++ eventsFrom {} below := if_pos h

theorem eventsFrom_cons (block : Block) (h : isSeparator line = false) :
    eventsFrom block (line :: below) = eventsFrom (block.read line) below := by
  rw [eventsFrom, if_neg (by simp [h]), Block.read]
  split <;> rfl

/-- Lines up to the next separator go on with the block, and every separator begins another one. -/
theorem eventsFrom_eq {lines : List String} (block : Block)
    (h : lines.splitOnP isSeparator = first :: others) : eventsFrom block lines =
      (first.foldl Block.read block).events ++
        others.flatMap fun other => (other.foldl Block.read {}).events := by
  -- What was read of the first block so far is any `block`, that of the later ones is always empty.
  induction lines generalizing block first others with
  | nil =>
    rw [List.splitOnP_nil] at h
    cases h
    simp [eventsFrom]
  | cons line rest ih =>
    obtain ⟨first', others', hrest⟩ :=
      List.exists_cons_of_ne_nil (List.splitOnP_ne_nil isSeparator rest)
    rw [List.splitOnP_cons_eq_if_modifyHead, hrest] at h
    cases hseparator : isSeparator line with
    | true =>
      rw [if_pos hseparator] at h
      cases h
      rw [eventsFrom_cons_of_separator block hseparator, ih {} hrest]
      rfl
    | false =>
      rw [if_neg (by simp [hseparator])] at h
      cases h
      rw [eventsFrom_cons block hseparator, ih _ hrest]
      rfl

theorem map_graphLines (numbered : List (String × Nat)) :
    (graphLines numbered).map (·.1) = body (numbered.map (·.1)) := by
  simp only [graphLines, afterHeader, body, List.dropWhile_map, ← List.map_drop,
    List.takeWhile_map]
  rfl

theorem events_trace_eq (lines : List String) :
    (trace lines).events = eventsFrom {} (body lines) := by
  rw [← List.zipIdx_map_fst 1 lines, ← map_graphLines, List.zipIdx_map_fst]
  rfl

/-- A report tells what each of its blocks tells. -/
theorem events_trace {lines : List String} (single : EachSingle (blocks lines)) :
    (trace lines).events = (blocks lines).flatMap blockEvents := by
  obtain ⟨first, others, hblocks⟩ := List.exists_cons_of_ne_nil
    (List.splitOnP_ne_nil isSeparator (body lines))
  rw [blocks, hblocks] at single ⊢
  obtain ⟨hfirst, hothers⟩ := List.forall_mem_cons.1 single
  rw [events_trace_eq, eventsFrom_eq {} hblocks, Block.events_foldl_read hfirst, List.flatMap_cons]
  congr 1
  exact List.flatMap_congr fun other hother => Block.events_foldl_read (hothers other hother)

/-! ## Lines that count for themselves alone -/

theorem exists_splitOnP_insert {β : Type} (p : β → Bool) (above below : List β) :
    ∃ earlier upper lower later, ∀ plain : List β, (∀ x ∈ plain, p x = false) →
      (above ++ plain ++ below).splitOnP p = earlier ++ (upper ++ plain ++ lower) :: later := by
  -- Elements of `above` end up in `upper` until a separator is met, and in `earlier` from then on.
  induction above with
  | nil =>
    obtain ⟨lower, later, hbelow⟩ := List.exists_cons_of_ne_nil (List.splitOnP_ne_nil p below)
    refine ⟨[], [], lower, later, fun plain hplain => ?_⟩
    simp only [List.nil_append]
    induction plain with
    | nil => exact hbelow
    | cons x rest ih =>
      obtain ⟨hx, hrest⟩ := List.forall_mem_cons.1 hplain
      rw [List.cons_append, List.splitOnP_cons_eq_if_modifyHead, if_neg (by simp [hx]), ih hrest]
      rfl
  | cons x rest ih =>
    obtain ⟨earlier, upper, lower, later, hinsert⟩ := ih
    cases hx : p x with
    | true =>
      refine ⟨[] :: earlier, upper, lower, later, fun plain hplain => ?_⟩
      rw [List.cons_append, List.cons_append, List.splitOnP_cons_eq_if_modifyHead, if_pos hx,
        hinsert plain hplain]
      rfl
    | false =>
      have hcons (plain : List β) (hplain : ∀ x ∈ plain, p x = false) :
          (x :: rest ++ plain ++ below).splitOnP p =
            (earlier ++ (upper ++ plain ++ lower) :: later).modifyHead (x :: ·) := by
        rw [List.cons_append, List.cons_append, List.splitOnP_cons_eq_if_modifyHead,
          if_neg (by simp [hx]), hinsert plain hplain]
      cases earlier with
      | nil => exact ⟨[], x :: upper, lower, later, hcons⟩
      | cons block earlier => exact ⟨(x :: block) :: earlier, upper, lower, later, hcons⟩

/-- What the functions of lines in one place tell: always the same of one function, and only events
that it is part of. -/
def TellsApart (tells : List String → List Event) : Prop :=
  ∃ (left right : List Event) (tell : Call → Option Event),
    (∀ call event, tell call = some event → call ∈ event.calls) ∧
    ∀ plain, (∀ line ∈ plain, IsPlain line) →
      tells plain = left ++ (functionsOf plain).filterMap tell ++ right

theorem tellsApart_const (events : List Event) : TellsApart fun _ => events :=
  ⟨events, [], fun _ => none, by simp, by simp⟩

theorem tellsApart_map (tell : Call → Event) (own : ∀ call, call ∈ (tell call).calls) :
    TellsApart fun plain => (functionsOf plain).map tell :=
  ⟨[], [], fun call => some (tell call), by simpa using own, by simp [List.filterMap_eq_map']⟩

namespace TellsApart

variable {tells same : List String → List Event}

theorem within (h : TellsApart tells) (left right : List Event) :
    TellsApart fun plain => left ++ tells plain ++ right := by
  obtain ⟨left', right', tell, hown, hplain⟩ := h
  refine ⟨left ++ left', right' ++ right, tell, hown, fun plain h => ?_⟩
  simp only [hplain plain h, List.append_assoc]

theorem congr (h : TellsApart same)
    (heq : ∀ plain, (∀ line ∈ plain, IsPlain line) → tells plain = same plain) :
    TellsApart tells := by
  obtain ⟨left, right, tell, hown, hplain⟩ := h
  exact ⟨left, right, tell, hown, fun plain h => (heq plain h).trans (hplain plain h)⟩

end TellsApart

theorem tellsApart_callers (entry : Call) (upper above below : List String) :
    TellsApart fun plain => entryEvents entry (upper ++ plain ++ above) below := by
  refine ((tellsApart_map (fun caller => .call caller entry) (by simp [Event.calls])).within
    (.node entry :: (functionsOf upper).map fun caller => .call caller entry)
    ((functionsOf above).map (fun caller => .call caller entry) ++
      (functionsOf below).map fun callee => .call entry callee)).congr fun plain _ => ?_
  simp [entryEvents, functionsOf_append]

theorem tellsApart_callees (entry : Call) (above upper lower : List String) :
    TellsApart fun plain => entryEvents entry above (upper ++ plain ++ lower) := by
  refine ((tellsApart_map (fun callee => .call entry callee) (by simp [Event.calls])).within
    (.node entry :: (functionsOf above).map (fun caller => .call caller entry) ++
      (functionsOf upper).map fun callee => .call entry callee)
    ((functionsOf lower).map fun callee => .call entry callee)).congr fun plain _ => ?_
  simp [entryEvents, functionsOf_append]

theorem tellsApart_blockEvents (upper lower : List String) :
    TellsApart fun plain => blockEvents (upper ++ plain ++ lower) := by
  have hfree {plain : List String} (hplain : ∀ line ∈ plain, IsPlain line) :
      ∀ line ∈ plain, isEntryLine line = false := fun line hline => (hplain line hline).entry
  -- Above the line in brackets, functions are callers, below it callees, and without it nothing.
  rcases block_cases upper with hupper | ⟨above, bracketed, below, rfl, habove, hentry⟩
  · rcases block_cases lower with hlower | ⟨above, bracketed, below, rfl, habove, hentry⟩
    · refine (tellsApart_const []).congr fun plain hplain => blockEvents_of_plain ?_
      simp only [List.forall_mem_append]
      exact ⟨⟨hupper, hfree hplain⟩, hlower⟩
    · have hblock (plain : List String) (hplain : ∀ line ∈ plain, IsPlain line) :
          ∀ line ∈ upper ++ plain ++ above, isEntryLine line = false := by
        simp only [List.forall_mem_append]
        exact ⟨⟨hupper, hfree hplain⟩, habove⟩
      simp only [← List.append_assoc]
      cases hread : readLine bracketed with
      | error e =>
        refine (tellsApart_const []).congr fun plain hplain => ?_
        rw [blockEvents_of_entry (hblock plain hplain) hentry, hread]
      | ok entry =>
        refine (tellsApart_callers entry upper above below).congr fun plain hplain => ?_
        rw [blockEvents_of_entry (hblock plain hplain) hentry, hread]
  · simp only [List.append_assoc, List.cons_append]
    cases hread : readLine bracketed with
    | error e =>
      refine (tellsApart_const []).congr fun plain _ => ?_
      rw [blockEvents_of_entry habove hentry, hread]
    | ok entry =>
      refine (tellsApart_callees entry above below lower).congr fun plain _ => ?_
      rw [blockEvents_of_entry habove hentry, hread, List.append_assoc]

/-- Lines below the header are among those of the call graph, unless it has ended above them. -/
theorem body_insert (hheader : ∃ line ∈ before, isHeader line) (after : List String) :
    (∃ above below, ∀ plain, (∀ line ∈ plain, IsPlain line) →
      body (before ++ plain ++ after) = above ++ plain ++ below) ∨
    ∃ lines, ∀ plain, body (before ++ plain ++ after) = lines := by
  obtain ⟨header, rest, hrest⟩ : ∃ header rest,
      (before.dropWhile fun line => !isHeader line) = header :: rest := by
    refine List.exists_cons_of_ne_nil fun hnil => ?_
    obtain ⟨line, hline, hline'⟩ := hheader
    simpa [hline'] using List.dropWhile_eq_nil_iff.1 hnil line hline
  have hbody (plain : List String) : body (before ++ plain ++ after) =
      (rest ++ plain ++ after).takeWhile fun line => !isSentinel line := by
    rw [body, List.append_assoc, List.dropWhile_append, hrest]
    simp
  by_cases hended : ∃ line ∈ rest, isSentinel line
  · refine .inr ⟨rest.takeWhile fun line => !isSentinel line, fun plain => ?_⟩
    have hshort : (rest.takeWhile fun line => !isSentinel line).length ≠ rest.length := by
      intro hlength
      obtain ⟨line, hline, hline'⟩ := hended
      rw [← (List.takeWhile_prefix _).eq_of_length hlength] at hline
      simpa [hline'] using List.mem_takeWhile_imp hline
    rw [hbody, List.append_assoc, List.takeWhile_append, if_neg hshort]
  · have hopen : ∀ line ∈ rest, (!isSentinel line) = true := fun line hline => by
      simpa using fun h => hended ⟨line, hline, h⟩
    refine .inl ⟨rest, after.takeWhile fun line => !isSentinel line, fun plain hplain => ?_⟩
    have hfree : ∀ line ∈ plain, (!isSentinel line) = true := fun line hline => by
      simp [(hplain line hline).sentinel]
    rw [hbody, List.append_assoc, List.takeWhile_append_of_pos hopen,
      List.takeWhile_append_of_pos hfree, List.append_assoc]

/-- In a report without a second line in brackets in any block, a line that is put into a block,
taken out of it or changed leaves all other events alone. -/
theorem tellsApart_trace (hheader : ∃ line ∈ before, isHeader line)
    (hplain : ∀ line ∈ plain, IsPlain line)
    (single : EachSingle (blocks (before ++ plain ++ after))) :
    TellsApart fun other => (trace (before ++ other ++ after)).events := by
  rcases body_insert hheader after with ⟨above, below, hbody⟩ | ⟨lines, hbody⟩
  · obtain ⟨earlier, upper, lower, later, hinsert⟩ :=
      exists_splitOnP_insert isSeparator above below
    have hblocks (other : List String) (hother : ∀ line ∈ other, IsPlain line) :
        blocks (before ++ other ++ after) = earlier ++ (upper ++ other ++ lower) :: later := by
      rw [blocks, hbody other hother, hinsert other fun line hline => (hother line hline).separator]
    rw [hblocks plain hplain] at single
    have hsingle (other : List String) (hother : ∀ line ∈ other, IsPlain line) :
        EachSingle (blocks (before ++ other ++ after)) := by
      have hfree : ∀ {lines : List String}, (∀ line ∈ lines, IsPlain line) →
          lines.filter isEntryLine = [] := fun hlines =>
        List.filter_eq_nil_iff.2 fun line hline => by simp [(hlines line hline).entry]
      rw [hblocks other hother]
      simpa [EachSingle, or_imp, forall_and, hfree hplain, hfree hother] using single
    refine ((tellsApart_blockEvents upper lower).within (earlier.flatMap blockEvents)
      (later.flatMap blockEvents)).congr fun other hother => ?_
    rw [events_trace (hsingle other hother), hblocks other hother]
    simp
  · refine (tellsApart_const (eventsFrom {} lines)).congr fun other _ => ?_
    rw [events_trace_eq, hbody]

theorem body_append (hbefore : ∀ line ∈ before, isHeader line = false) (after : List String) :
    body (before ++ after) = body after := by
  have hskipped : ∀ line ∈ before, (!isHeader line) = true := fun line hline => by
    simp [hbefore line hline]
  rw [body, List.dropWhile_append_of_pos hskipped, body]

/-! ## Loads -/

/-- A load records the events of the blocks, one after the other. A line of a block that is not in
brackets counts for itself alone, and one above the header for nothing. -/
theorem load_blocks {α : Type} {files : FileTree} {source : Source} {lines : List String}
    (options : Options) (hread : listing files source = .ok lines)
    (single : EachSingle (blocks lines)) :
    load files source options = .ok (CallGraph.ofTrace source.describe .gprof options
      ⟨(blocks lines).flatMap blockEvents, lineErrors (graphLines (lines.zipIdx 1))⟩ :
        CallGraph α) ∧
    (∀ before plain after, lines = before ++ plain ++ after → (∃ line ∈ before, isHeader line) →
      (∀ line ∈ plain, IsPlain line) →
      TellsApart fun other => (trace (before ++ other ++ after)).events) ∧
    ∀ before after, lines = before ++ after → (∀ line ∈ before, isHeader line = false) →
      ∀ other, (∀ line ∈ other, isHeader line = false) →
        (trace (other ++ after)).events = (trace lines).events := by
  refine ⟨?_, ?_, ?_⟩
  · rw [load_eq, hread, ← events_trace single]
    rfl
  · rintro before plain after rfl hheader hplain
    exact tellsApart_trace hheader hplain single
  · rintro before after rfl hbefore other hother
    rw [events_trace_eq, events_trace_eq, body_append hother, body_append hbefore]

/-- The first block has lost its function, and nothing closes the second. -/
def truncatedLines : List String := [
  header,
  "                0.00    0.00       1/1           main (./a.c:1 @ 4f) [1]",
  "[3]    ???",
  separator,
  "                0.00    0.00       1/1           main (./a.c:1 @ 4f) [1]",
  "[2]    50.0    0.00    0.00       1          work (./a.c:9 @ 5a) [2]"]

def truncatedReport : String := "\n".intercalate truncatedLines

theorem events_of_truncatedReport : EachSingle (blocks truncatedLines) ∧
    load [] (.text truncatedReport) {} = .ok (CallGraph.ofTrace "<text>" .gprof {}
      ⟨[.node ⟨"work", "./a.c", .c, .function⟩,
        .call ⟨"main", "./a.c", .c, .function⟩ ⟨"work", "./a.c", .c, .function⟩],
        lineErrors (graphLines (truncatedLines.zipIdx 1))⟩ : CallGraph Rat) := by
  have hread : listing [] (.text truncatedReport) = .ok truncatedLines := by
    rw [listing_text, truncatedReport, Text.textLines_intercalate (by decide) (by decide)]
  have single : EachSingle (blocks truncatedLines) := by
    unfold EachSingle
    decide +kernel
  have hevents : (blocks truncatedLines).flatMap blockEvents =
      [.node ⟨"work", "./a.c", .c, .function⟩,
        .call ⟨"main", "./a.c", .c, .function⟩ ⟨"work", "./a.c", .c, .function⟩] := by
    decide +kernel
  refine ⟨single, (load_blocks {} hread single).1.trans ?_⟩
  rw [hevents]
  rfl

end AttackSurface.Gprof
