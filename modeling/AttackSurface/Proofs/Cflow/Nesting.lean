import AttackSurface.Cflow.Tree
import AttackSurface.Proofs.Graph.Listing
import Mathlib.Data.List.Chain

/-! What the lines of a call tree are nested in. A tree is read with a stack of calls and the level
of one line only; where no line lies more than one level below the line before it, the top of the
stack is the nearest line above of smaller level. -/
namespace AttackSurface.Cflow

/-- No line lies more than one level below the line before it. -/
def DescendsByOne (tree : List Line) : Prop :=
  tree.IsChain fun before line => line.level ≤ before.level + 1

instance (tree : List Line) : Decidable (DescendsByOne tree) :=
  inferInstanceAs (Decidable (tree.IsChain _))

/-- The nearest line above line `j` that has a smaller level. -/
def parentOf? (tree : List Line) (j : Nat) : Option Line :=
  tree[j]?.bind fun line => (tree.take j).reverse.find? fun above => above.level < line.level

/-- Line `k` is the nearest line above line `j` that has a smaller level. -/
def IsParent (tree : List Line) (k j : Nat) : Prop :=
  ∃ above parent between child below,
    tree = above ++ parent :: (between ++ child :: below) ∧ above.length = k ∧
      above.length + 1 + between.length = j ∧ parent.level < child.level ∧
      ∀ line ∈ between, child.level ≤ line.level

/-- What a line tells of that is nested in a call: it is called by it, or calls it in a reverse
tree. -/
def pairEvent (reverse : Bool) (parent : Call) (line : Line) : Event :=
  if reverse then .call line.call parent else .call parent line.call

/-- What a tree tells of if each line is nested in its parent. -/
def parentEvents (reverse : Bool) (tree : List Line) : List Event :=
  tree.zipIdx.filterMap fun numbered =>
    (parentOf? tree numbered.2).map fun parent => pairEvent reverse parent.call numbered.1

/-- The stack and the line before, once some more lines are read. -/
def stateAfter (stack : List Call) (previous : Option Line) :
    List Line → List Call × Option Line
  | [] => (stack, previous)
  | line :: rest => stateAfter (enclosing stack previous line) (some line) rest

/-- A line of level `floor` would be nested in `outer`: the calls on top of it, with the line
before, are as many as the levels to be left. -/
def Encloses (outer : List Call) (floor : Nat) (state : List Call × Option Line) : Prop :=
  ∃ before inner, state.2 = some before ∧ before.call :: state.1 = inner ++ outer ∧
    inner.length + floor = before.level + 1

variable {tree above between below : List Line} {before parent child line : Line}
  {stack outer : List Call} {previous : Option Line} {floor : Nat}

/-! ## The stack after one line -/

/-- With the line before on top of it, the stack loses as many calls as the levels fall by, counted
from one level below that line. -/
theorem enclosing_eq_drop (h : line.level ≤ before.level + 1) :
    enclosing stack (some before) line =
      (before.call :: stack).drop (before.level + 1 - line.level) := by
  unfold enclosing
  by_cases hrise : before.level < line.level
  · have hzero : before.level + 1 - line.level = 0 := by omega
    simp only [hrise, if_true, hzero, List.drop_zero]
  · have hsucc : before.level + 1 - line.level = before.level - line.level + 1 := by omega
    simp only [hrise, if_false, hsucc, List.drop_succ_cons]

/-- The stack is not higher than the line lies below any level that was not left. -/
theorem length_enclosing_le (hstack : stack.length + floor ≤ before.level)
    (hline : floor ≤ line.level) :
    (enclosing stack (some before) line).length + floor ≤ line.level := by
  unfold enclosing
  by_cases hrise : before.level < line.level
  · simp only [hrise, if_true, List.length_cons]
    omega
  · simp only [hrise, if_false, List.length_drop]
    omega

theorem Encloses.enclosing_eq (h : Encloses outer line.level (stack, previous))
    (hstep : ∀ before ∈ previous, line.level ≤ before.level + 1) :
    enclosing stack previous line = outer := by
  obtain ⟨before, inner, hprevious, hopen, hdepth⟩ := h
  dsimp only at hprevious hopen
  have hdrop : before.level + 1 - line.level = inner.length := by omega
  rw [hprevious, enclosing_eq_drop (hstep before hprevious), hopen, hdrop, List.drop_left]

theorem Encloses.step (h : Encloses outer floor (stack, some before))
    (hstep : line.level ≤ before.level + 1) (hfloor : floor ≤ line.level) :
    Encloses outer floor (enclosing stack (some before) line, some line) := by
  obtain ⟨_, inner, ⟨⟩, hopen, hdepth⟩ := h
  dsimp only at hopen
  have hshort : before.level + 1 - line.level ≤ inner.length := by omega
  refine ⟨line, line.call :: inner.drop (before.level + 1 - line.level), rfl, ?_, ?_⟩
  · rw [enclosing_eq_drop hstep, hopen, List.drop_append_of_le_length hshort, List.cons_append]
  · rw [List.length_cons, List.length_drop]
    omega

/-! ## The stack after many lines -/

theorem stateAfter_snd (stack : List Call) (before : Line) (lines : List Line) :
    (stateAfter stack (some before) lines).2 = (before :: lines).getLast? := by
  induction lines generalizing stack before with
  | nil => rfl
  | cons line rest ih =>
    rw [List.getLast?_cons_cons]
    exact ih _ _

/-- Lines are nested as if those above had left only the stack and the last of them. -/
theorem nestedFrom_append (stack : List Call) (previous : Option Line) (above below : List Line) :
    nestedFrom stack previous (above ++ below) =
      nestedFrom stack previous above ++
        nestedFrom (stateAfter stack previous above).1 (stateAfter stack previous above).2
          below := by
  induction above generalizing stack previous with
  | nil => rfl
  | cons line rest ih => exact congrArg (_ :: ·) (ih _ _)

theorem length_nestedFrom (stack : List Call) (previous : Option Line) (tree : List Line) :
    (nestedFrom stack previous tree).length = tree.length := by
  induction tree generalizing stack previous with
  | nil => rfl
  | cons line rest ih => exact congrArg (· + 1) (ih _ _)

theorem getElem?_nestedFrom_append (stack : List Call) (previous : Option Line)
    (above below : List Line) (n : Nat) :
    (nestedFrom stack previous (above ++ below))[above.length + n]? =
      (nestedFrom (stateAfter stack previous above).1 (stateAfter stack previous above).2
        below)[n]? := by
  rw [nestedFrom_append, List.getElem?_append_right (by rw [length_nestedFrom]; omega),
    length_nestedFrom, Nat.add_sub_cancel_left]

theorem Encloses.stateAfter (h : Encloses outer floor (stack, some before))
    (hsteps : DescendsByOne (before :: between)) (hfloor : ∀ line ∈ between, floor ≤ line.level) :
    Encloses outer floor (stateAfter stack (some before) between) := by
  induction between generalizing stack before with
  | nil => exact h
  | cons line rest ih =>
    obtain ⟨hstep, hrest⟩ := List.isChain_cons_cons.1 hsteps
    obtain ⟨hline, hlater⟩ := List.forall_mem_cons.1 hfloor
    exact ih (h.step hstep hline) hrest hlater

/-- As long as no line leaves the level of `child`, what encloses that level does not change. -/
theorem Encloses.getElem?_nestedFrom (h : Encloses outer child.level (stack, some before))
    (hsteps : DescendsByOne (before :: (between ++ [child])))
    (hbetween : ∀ line ∈ between, child.level ≤ line.level) :
    (nestedFrom stack (some before) (between ++ child :: below))[between.length]? =
      some (outer.head?, child) := by
  obtain ⟨hchain, -, hlast⟩ := List.isChain_append.1 (List.cons_append ▸ hsteps)
  have hopen := h.stateAfter hchain hbetween
  have hnested := getElem?_nestedFrom_append stack (some before) between (child :: below) 0
  rw [Nat.add_zero] at hnested
  rw [hnested, ← hopen.enclosing_eq (fun last hmem => ?_)]
  · rfl
  · rw [stateAfter_snd] at hmem
    exact hlast last hmem child rfl

/-! ## Lines below a line -/

theorem encloses_of_parent (parent : Line) (stack : List Call) :
    Encloses (parent.call :: stack) (parent.level + 1) (stack, some parent) :=
  ⟨parent, [], rfl, rfl, Nat.zero_add _⟩

theorem level_eq_of_parent (hchild : parent.level < child.level)
    (hbetween : ∀ line ∈ between, child.level ≤ line.level)
    (hsteps : DescendsByOne (parent :: (between ++ [child]))) :
    child.level = parent.level + 1 := by
  cases between with
  | nil =>
    obtain ⟨hstep, -⟩ := List.isChain_cons_cons.1 hsteps
    omega
  | cons line rest =>
    obtain ⟨hstep, -⟩ := List.isChain_cons_cons.1 hsteps
    have hline := hbetween line (List.mem_cons_self ..)
    omega

/-- A line is nested in the nearest line above of smaller level if the levels from there on rise by
one at a time. What lies further above and below does not matter. -/
theorem getElem?_nested_of_parent (hchild : parent.level < child.level)
    (hbetween : ∀ line ∈ between, child.level ≤ line.level)
    (hsteps : DescendsByOne (parent :: (between ++ [child]))) :
    (nested (above ++ parent :: (between ++ child :: below)))[above.length + 1 + between.length]? =
      some (some parent.call, child) := by
  have hlevel := level_eq_of_parent hchild hbetween hsteps
  rw [nested, Nat.add_assoc, getElem?_nestedFrom_append, Nat.add_comm 1]
  exact Encloses.getElem?_nestedFrom (hlevel ▸ encloses_of_parent parent _) hsteps hbetween

/-! ## Lines with nothing above them -/

theorem getElem?_nestedFrom_of_floor (hstack : stack.length + child.level ≤ before.level)
    (habove : ∀ line ∈ above, child.level ≤ line.level) :
    (nestedFrom stack (some before) (above ++ child :: below))[above.length]? =
      some (none, child) := by
  induction above generalizing stack before with
  | nil =>
    have hlength := length_enclosing_le hstack (Nat.le_refl child.level)
    have hempty : enclosing stack (some before) child = [] :=
      List.length_eq_zero_iff.1 (by omega)
    simp [nestedFrom, hempty]
  | cons line rest ih =>
    obtain ⟨hline, hrest⟩ := List.forall_mem_cons.1 habove
    exact ih (length_enclosing_le hstack hline) hrest

theorem getElem?_nested_of_outermost (habove : ∀ line ∈ above, child.level ≤ line.level) :
    (nested (above ++ child :: below))[above.length]? = some (none, child) := by
  cases above with
  | nil => rfl
  | cons line rest =>
    obtain ⟨hline, hrest⟩ := List.forall_mem_cons.1 habove
    have hstack : ([] : List Call).length + child.level ≤ line.level := by simpa using hline
    exact getElem?_nestedFrom_of_floor hstack hrest

theorem getElem?_nested_of_floor {j : Nat} (hline : tree[j]? = some line)
    (hfloor : ∀ above ∈ tree.take j, line.level ≤ above.level) :
    (nested tree)[j]? = some (none, line) := by
  obtain ⟨hj, rfl⟩ := List.getElem?_eq_some_iff.1 hline
  have hout : (nested (tree.take j ++ tree[j] :: tree.drop (j + 1)))[(tree.take j).length]? =
      some (none, tree[j]) := getElem?_nested_of_outermost hfloor
  rwa [← List.drop_eq_getElem_cons hj, List.take_append_drop, List.length_take,
    Nat.min_eq_left (Nat.le_of_lt hj)] at hout

/-! ## The nearest line above -/

theorem IsParent.of_parentOf? {j : Nat} (h : parentOf? tree j = some parent) :
    ∃ k, IsParent tree k j ∧ tree[k]? = some parent := by
  obtain ⟨child, hchild, hfind⟩ := Option.bind_eq_some_iff.1 h
  obtain ⟨hj, hget⟩ := List.getElem?_eq_some_iff.1 hchild
  obtain ⟨hlevel, nearer, farther, hsplit, hnearer⟩ := List.find?_eq_some_iff_append.1 hfind
  have habove : tree.take j = farther.reverse ++ parent :: nearer.reverse := by
    rw [← List.reverse_inj, hsplit]
    simp
  have htree : tree =
      farther.reverse ++ parent :: (nearer.reverse ++ child :: tree.drop (j + 1)) := by
    rw [← hget]
    conv_lhs => rw [← List.take_append_drop j tree, habove, List.drop_eq_getElem_cons hj]
    simp
  have hlength : farther.reverse.length + 1 + nearer.reverse.length = j := by
    have htake := congrArg List.length habove
    simp only [List.length_take, List.length_append, List.length_cons] at htake
    omega
  refine ⟨farther.length, ⟨farther.reverse, parent, nearer.reverse, child, tree.drop (j + 1), htree,
    List.length_reverse, hlength, of_decide_eq_true hlevel, fun line hline => ?_⟩, ?_⟩
  · simpa using hnearer line (List.mem_reverse.1 hline)
  · rw [htree, List.getElem?_append_right (by simp)]
    simp

/-- The lines from a line's parent down to the line descend by one at a time if those of the whole
tree do. -/
theorem DescendsByOne.segment
    (h : DescendsByOne (above ++ parent :: (between ++ child :: below))) :
    DescendsByOne (parent :: (between ++ [child])) := by
  refine List.IsChain.infix h ⟨above, below, ?_⟩
  simp

theorem IsParent.split {k j : Nat} (h : IsParent tree k j) (hparent : tree[k]? = some parent)
    (hchild : tree[j]? = some child) :
    ∃ above between below, tree = above ++ parent :: (between ++ child :: below) ∧
      above.length = k ∧ above.length + 1 + between.length = j ∧ parent.level < child.level ∧
      ∀ line ∈ between, child.level ≤ line.level := by
  obtain ⟨above, first, between, last, below, rfl, rfl, rfl, hlevel, hbetween⟩ := h
  have hfirst : first = parent := by simpa using hparent
  have hlast : last = child := by
    have hindex : above.length + 1 + between.length = (above ++ first :: between).length := by
      simp only [List.length_append, List.length_cons]
      omega
    have hsplit : above ++ first :: (between ++ last :: below) =
        (above ++ first :: between) ++ last :: below := by simp
    rw [hindex, hsplit] at hchild
    simpa using hchild
  subst hfirst hlast
  exact ⟨above, between, below, rfl, rfl, rfl, hlevel, hbetween⟩

/-! ## The whole tree -/

theorem getElem?_nested (hsteps : DescendsByOne tree) {j : Nat} (hline : tree[j]? = some line) :
    (nested tree)[j]? = some ((parentOf? tree j).map (·.call), line) := by
  cases hparent : parentOf? tree j with
  | some parent =>
    obtain ⟨k, hisParent, hget⟩ := IsParent.of_parentOf? hparent
    obtain ⟨above, between, below, rfl, -, rfl, hlevel, hbetween⟩ := hisParent.split hget hline
    exact getElem?_nested_of_parent hlevel hbetween hsteps.segment
  | none =>
    have hnone := Option.bind_eq_none_iff.1 hparent line hline
    refine getElem?_nested_of_floor hline ?_
    simpa using hnone

theorem nested_eq (hsteps : DescendsByOne tree) :
    nested tree =
      tree.zipIdx.map fun numbered => ((parentOf? tree numbered.2).map (·.call), numbered.1) := by
  apply List.ext_getElem?
  intro j
  rw [List.getElem?_map, List.getElem?_zipIdx]
  cases hline : tree[j]? with
  | none =>
    have hbound : (nested tree).length ≤ j := by
      rw [nested, length_nestedFrom]
      exact List.getElem?_eq_none_iff.1 hline
    simpa using hbound
  | some line => simp [getElem?_nested hsteps hline]

/-- A tree that descends by one line at a time tells of one call for each line with a parent. -/
theorem events_eq_parentEvents (hsteps : DescendsByOne tree) (reverse : Bool) :
    events reverse tree = parentEvents reverse tree := by
  rw [events, nested_eq hsteps, List.filterMap_map, parentEvents]
  refine List.filterMap_congr fun numbered _ => ?_
  simp only [Function.comp_apply, Option.map_map]
  rfl

theorem call_mem_parentEvents {caller callee : Call} :
    .call caller callee ∈ parentEvents false tree ↔
      ∃ j line parent, tree[j]? = some line ∧ parentOf? tree j = some parent ∧
        parent.call = caller ∧ line.call = callee := by
  simp only [parentEvents, List.mem_filterMap, Option.map_eq_some_iff, Prod.exists,
    List.mem_zipIdx_iff_getElem?]
  constructor
  · rintro ⟨line, j, hline, parent, hparent, heq⟩
    obtain ⟨hcaller, hcallee⟩ := Event.call.inj heq
    exact ⟨j, line, parent, hline, hparent, hcaller, hcallee⟩
  · rintro ⟨j, line, parent, hline, hparent, rfl, rfl⟩
    exact ⟨line, j, hline, parent, hparent, rfl⟩

/-- A reverse tree tells of the same calls the other way round. -/
theorem call_mem_parentEvents_reverse {caller callee : Call} :
    .call caller callee ∈ parentEvents true tree ↔
      .call callee caller ∈ parentEvents false tree := by
  simp only [parentEvents, List.mem_filterMap, Option.map_eq_some_iff]
  refine exists_congr fun numbered => and_congr_right fun _ => exists_congr fun parent =>
    and_congr_right fun _ => ?_
  simp [pairEvent, and_comm]

/-! ## The lines of a text -/

/-- All lines but the blank ones can be read. -/
def Legible (lines : List String) : Prop :=
  ∀ line ∈ lines, isBlankLine line = false → (readLine line).isOk

instance (lines : List String) : Decidable (Legible lines) :=
  inferInstanceAs (Decidable (∀ line ∈ lines, isBlankLine line = false → (readLine line).isOk))

theorem exists_of_isOk {text : String} (h : (readLine text).isOk) :
    ∃ parsed, readLine text = .ok parsed := by
  cases hread : readLine text with
  | ok parsed => exact ⟨parsed, rfl⟩
  | error e => simp [hread, Except.isOk, Except.toBool] at h

theorem map_ok_treeLines {lines : List String} (h : Legible lines) :
    (treeLines lines).map Except.ok =
      (lines.filter fun line => !isBlankLine line).map readLine := by
  unfold treeLines
  induction lines with
  | nil => rfl
  | cons line rest ih =>
    obtain ⟨hline, hrest⟩ := List.forall_mem_cons.1 h
    cases hblank : isBlankLine line with
    | true => simpa [hblank] using ih hrest
    | false =>
      obtain ⟨parsed, hparsed⟩ := exists_of_isOk (hline hblank)
      simpa [hblank, hparsed, Except.toOption] using ih hrest

/-- What is wrong with a line that has a number, if anything. -/
def lineError? (numbered : String × Nat) : Option LineError :=
  if isBlankLine numbered.1 then none
  else
    match readLine numbered.1 with
    | .ok _ => none
    | .error e => some (e.atLine numbered.2)

theorem lineErrors_eq (lines : List String) :
    lineErrors lines = (lines.zipIdx 1).filterMap lineError? := rfl

theorem filterMap_lineError?_of_legible {lines : List String} (h : Legible lines) (first : Nat) :
    (lines.zipIdx first).filterMap lineError? = [] := by
  refine List.filterMap_eq_nil_iff.2 ?_
  rintro ⟨line, number⟩ hmem
  unfold lineError?
  cases hblank : isBlankLine line with
  | true => rfl
  | false =>
    obtain ⟨parsed, hparsed⟩ := exists_of_isOk (h line (List.fst_mem_of_mem_zipIdx hmem) hblank)
    simp [hparsed]

/-! ## Loading -/

variable {α : Type} {files : FileTree} {source : Source} {lines : List String}

/-- A tree that can be read and descends by one line at a time is loaded with one call for each line
that has a nearest line above of smaller level, and this is the line it is nested in. So its call
edges lead from parents to the lines below them, but for library functions, and those of the reverse
tree lead back. -/
theorem load_parentEvents (options : Options) (hread : source.allLines files = .ok lines)
    (hlegible : Legible lines) (hsteps : DescendsByOne (treeLines lines)) :
    (treeLines lines).map Except.ok =
      (lines.filter fun line => !isBlankLine line).map readLine ∧
    (∀ reverse, trace reverse lines = ⟨parentEvents reverse (treeLines lines), []⟩) ∧
    (∀ reverse, load files source reverse options =
      .ok (CallGraph.ofTrace source.describe .cflow options (trace reverse lines) :
        CallGraph α)) ∧
    ∃ forward backward : CallGraph α,
      load files source false options = .ok forward ∧
      load files source true options = .ok backward ∧
      (∀ u v, (forward.edgeAttrs? u v).any (·.isCall) ↔
        ∃ j line parent, (treeLines lines)[j]? = some line ∧
          parentOf? (treeLines lines) j = some parent ∧
          options.SeenAs parent.call u ∧ options.SeenAs line.call v) ∧
      ∀ u v, (backward.edgeAttrs? u v).any (·.isCall) ↔
        (forward.edgeAttrs? v u).any (·.isCall) := by
  have htrace (reverse : Bool) :
      trace reverse lines = ⟨parentEvents reverse (treeLines lines), []⟩ := by
    rw [trace, events_eq_parentEvents hsteps, lineErrors_eq,
      filterMap_lineError?_of_legible hlegible]
  have hload (reverse : Bool) : load files source reverse options =
      .ok (CallGraph.ofTrace source.describe .cflow options (trace reverse lines) :
        CallGraph α) := by
    rw [load, hread]
    rfl
  have hedges (reverse : Bool) (u v : Call) :
      ((CallGraph.ofTrace source.describe .cflow options (trace reverse lines) :
        CallGraph α).edgeAttrs? u v).any (·.isCall) ↔
        ∃ caller callee, .call caller callee ∈ parentEvents reverse (treeLines lines) ∧
          options.SeenAs caller u ∧ options.SeenAs callee v := by
    rw [htrace]
    exact CallGraph.edgeShows_call_ofEvents
  refine ⟨map_ok_treeLines hlegible, htrace, hload, _, _, hload false, hload true, fun u v => ?_,
    fun u v => ?_⟩
  · rw [hedges]
    simp only [call_mem_parentEvents]
    constructor
    · rintro ⟨_, _, ⟨j, line, parent, hline, hparent, rfl, rfl⟩, hu, hv⟩
      exact ⟨j, line, parent, hline, hparent, hu, hv⟩
    · rintro ⟨j, line, parent, hline, hparent, hu, hv⟩
      exact ⟨_, _, ⟨j, line, parent, hline, hparent, rfl, rfl⟩, hu, hv⟩
  · rw [hedges, hedges]
    simp only [call_mem_parentEvents_reverse]
    constructor
    · rintro ⟨caller, callee, hevent, hu, hv⟩
      exact ⟨callee, caller, hevent, hv, hu⟩
    · rintro ⟨caller, callee, hevent, hv, hu⟩
      exact ⟨callee, caller, hevent, hu, hv⟩

/-- A tree that starts below its root, with a blank line. -/
def unevenLines : List String := [
  "    parse() <int parse (void) at ./b.c:1>:",
  "        scan() <int scan (void) at ./b.c:9>:",
  "",
  "main() <int main (void) at ./a.c:1>:",
  "    scan() <int scan (void) at ./b.c:9>:",
  "    parse() <int parse (void) at ./b.c:1>:"]

def unevenListing : Source := .text
  ("    parse() <int parse (void) at ./b.c:1>:\n" ++
    "        scan() <int scan (void) at ./b.c:9>:\n" ++
    "\n" ++
    "main() <int main (void) at ./a.c:1>:\n" ++
    "    scan() <int scan (void) at ./b.c:9>:\n" ++
    "    parse() <int parse (void) at ./b.c:1>:\n")

theorem unevenListing_calls :
    unevenListing.allLines [] = .ok unevenLines ∧ Legible unevenLines ∧
    DescendsByOne (treeLines unevenLines) ∧
    ∃ forward : CallGraph Rat, load [] unevenListing false = .ok forward ∧
      (forward.edgeAttrs? ⟨"main", "./a.c", .c, .function⟩ ⟨"parse", "./b.c", .c, .function⟩).any
        (·.isCall) := by
  have hread : unevenListing.allLines [] = .ok unevenLines := by decide +kernel
  have hlegible : Legible unevenLines := by decide +kernel
  have hsteps : DescendsByOne (treeLines unevenLines) := by decide +kernel
  obtain ⟨-, -, -, forward, backward, hforward, -, hedges, -⟩ :=
    load_parentEvents (α := Rat) {} hread hlegible hsteps
  refine ⟨hread, hlegible, hsteps, forward, hforward, (hedges _ _).2 ?_⟩
  -- The last line, and the root right below the blank line.
  have hline : (treeLines unevenLines)[4]? =
      some ⟨⟨"parse", "./b.c", .c, .function⟩, 1, false⟩ := by decide +kernel
  have hparent : parentOf? (treeLines unevenLines) 4 =
      some ⟨⟨"main", "./a.c", .c, .function⟩, 0, false⟩ := by decide +kernel
  exact ⟨4, _, _, hline, hparent, ⟨by decide +kernel, _, rfl, rfl⟩, by decide +kernel, _, rfl, rfl⟩

end AttackSurface.Cflow
