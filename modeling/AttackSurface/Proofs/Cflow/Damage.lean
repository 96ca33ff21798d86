import AttackSurface.Proofs.Cflow.Nesting
import AttackSurface.Proofs.Text
import Mathlib.Data.List.TakeWhile

/-! What a line that can not be read costs. The lines below it keep what they are nested in, unless
the levels rise both into the line and out of it: the stack then sees one rise where there were two,
and the lines that return to levels above are nested one level too far out. -/
namespace AttackSurface.Cflow

/-- The levels rise into the line and again right below it. -/
def RisesThrough (above : List Line) (line : Line) (below : List Line) : Prop :=
  (∃ before ∈ above.getLast?, before.level < line.level) ∧
    ∃ after ∈ below.head?, line.level < after.level

instance (above : List Line) (line : Line) (below : List Line) :
    Decidable (RisesThrough above line below) :=
  inferInstanceAs (Decidable ((∃ before ∈ above.getLast?, before.level < line.level) ∧
    ∃ after ∈ below.head?, line.level < after.level))

variable {above between below : List Line} {parent child line : Line} {k j : Nat}

/-! ## A tree without one of its lines -/

theorem DescendsByOne.without (h : DescendsByOne (above ++ line :: below))
    (hrise : ¬ RisesThrough above line below) : DescendsByOne (above ++ below) := by
  obtain ⟨habove, htail, hinto⟩ := List.isChain_append.1 h
  obtain ⟨hout, hbelow⟩ := List.isChain_cons.1 htail
  refine List.isChain_append.2 ⟨habove, hbelow, fun before hbefore after hafter => ?_⟩
  have hin := hinto before hbefore line rfl
  have hfrom := hout after hafter
  by_cases hup : before.level < line.level
  · have hdown : ¬ line.level < after.level := fun hlt =>
      hrise ⟨⟨before, hbefore, hup⟩, after, hafter, hlt⟩
    omega
  · omega

/-- Of two places in a list, what is between them belongs to both sides. -/
theorem exists_between {α : Type} {xs ys zs ws : List α} {a b : α}
    (h : xs ++ a :: ys = zs ++ b :: ws) (hlt : xs.length < zs.length) :
    ∃ mid, zs = xs ++ a :: mid ∧ ys = mid ++ b :: ws := by
  rcases List.append_eq_append_iff.1 h with ⟨mid, rfl, hrest⟩ | ⟨mid, rfl, -⟩
  · cases mid with
    | nil => simp at hlt
    | cons first mid =>
      obtain ⟨rfl, hys⟩ := List.cons_eq_cons.1 hrest
      exact ⟨mid, rfl, hys⟩
  · rw [List.length_append] at hlt
    omega

/-- The lines around a lost line that is between a line and its parent. -/
theorem IsParent.split_around (hparent : IsParent (above ++ line :: below) k j)
    (hk : k < above.length) (hj : above.length < j)
    (hgetk : (above ++ line :: below)[k]? = some parent)
    (hgetj : (above ++ line :: below)[j]? = some child) :
    ∃ top upper lower bottom, above = top ++ parent :: upper ∧ below = lower ++ child :: bottom ∧
      top.length = k ∧ j = top.length + 1 + (upper ++ lower).length + 1 ∧
      parent.level < child.level ∧ child.level ≤ line.level ∧
      ∀ other ∈ upper ++ lower, child.level ≤ other.level := by
  obtain ⟨top, between, bottom, heq, rfl, rfl, hlevel, hbetween⟩ := hparent.split hgetk hgetj
  obtain ⟨upper, rfl, hrest⟩ := exists_between heq.symm hk
  have hlt : upper.length < between.length := by
    simp only [List.length_append, List.length_cons] at hj
    omega
  obtain ⟨lower, rfl, rfl⟩ := exists_between hrest.symm hlt
  refine ⟨top, upper, lower, bottom, rfl, rfl, rfl, ?_, hlevel, hbetween line (by simp),
    fun other hmem => hbetween other (by grind)⟩
  simp only [List.length_append, List.length_cons]
  omega

section Kept

variable (hsteps : DescendsByOne (above ++ line :: below))
  (hparent : IsParent (above ++ line :: below) k j)
  (hgetk : (above ++ line :: below)[k]? = some parent)
  (hgetj : (above ++ line :: below)[j]? = some child)
include hsteps hparent hgetk hgetj

theorem getElem?_nested_without_of_below (hj : j < above.length) :
    (nested (above ++ below))[j]? = some (some parent.call, child) := by
  obtain ⟨top, between, bottom, heq, rfl, rfl, hlevel, hbetween⟩ := hparent.split hgetk hgetj
  have hsegment := DescendsByOne.segment (heq ▸ hsteps)
  have hchild : top ++ parent :: (between ++ child :: bottom) =
      (top ++ parent :: between) ++ child :: bottom := by simp
  have hlt : (top ++ parent :: between).length < above.length := by
    simp only [List.length_append, List.length_cons]
    omega
  obtain ⟨mid, rfl, -⟩ := exists_between (heq.trans hchild).symm hlt
  have htree : top ++ parent :: between ++ child :: mid ++ below =
      top ++ parent :: (between ++ child :: (mid ++ below)) := by simp
  rw [htree]
  exact getElem?_nested_of_parent hlevel hbetween hsegment

theorem getElem?_nested_without_of_above (hk : above.length < k) :
    (nested (above ++ below))[j - 1]? = some (some parent.call, child) := by
  obtain ⟨top, between, bottom, heq, rfl, rfl, hlevel, hbetween⟩ := hparent.split hgetk hgetj
  have hsegment := DescendsByOne.segment (heq ▸ hsteps)
  obtain ⟨mid, rfl, rfl⟩ := exists_between heq hk
  have htree : above ++ (mid ++ parent :: (between ++ child :: bottom)) =
      above ++ mid ++ parent :: (between ++ child :: bottom) := by simp
  have hindex : (above ++ line :: mid).length + 1 + between.length - 1 =
      (above ++ mid).length + 1 + between.length := by
    simp only [List.length_append, List.length_cons]
    omega
  rw [hindex, htree]
  exact getElem?_nested_of_parent hlevel hbetween hsegment

theorem getElem?_nested_without_of_around (hk : k < above.length) (hj : above.length < j)
    (hrise : ¬ RisesThrough above line below) :
    (nested (above ++ below))[j - 1]? = some (some parent.call, child) := by
  have hwithout := hsteps.without hrise
  obtain ⟨top, upper, lower, bottom, rfl, rfl, -, rfl, hlevel, -, hbetween⟩ :=
    hparent.split_around hk hj hgetk hgetj
  have htree : top ++ parent :: upper ++ (lower ++ child :: bottom) =
      top ++ parent :: (upper ++ lower ++ child :: bottom) := by simp
  rw [htree] at hwithout ⊢
  exact getElem?_nested_of_parent hlevel hbetween hwithout.segment

/-- Without one of its lines a tree still nests every other line in the same parent, if this is not
the lost line and the stack does not miss a rise between them. -/
theorem getElem?_nested_without (hk : k ≠ above.length) (hj : j ≠ above.length)
    (hrise : k < above.length → above.length < j → ¬ RisesThrough above line below) :
    (nested (above ++ below))[if j < above.length then j else j - 1]? =
      some (some parent.call, child) := by
  by_cases hbelow : j < above.length
  · rw [if_pos hbelow]
    exact getElem?_nested_without_of_below hsteps hparent hgetk hgetj hbelow
  · rw [if_neg hbelow]
    have hlt : above.length < j := by omega
    by_cases habove : above.length < k
    · exact getElem?_nested_without_of_above hsteps hparent hgetk hgetj habove
    · have hupper : k < above.length := by omega
      exact getElem?_nested_without_of_around hsteps hparent hgetk hgetj hupper hlt
        (hrise hupper hlt)

end Kept

/-- A line that is nested in nothing is nested in nothing without another line. -/
theorem getElem?_nested_without_of_none (hj : j ≠ above.length)
    (hgetj : (above ++ line :: below)[j]? = some child)
    (hnone : parentOf? (above ++ line :: below) j = none) :
    (nested (above ++ below))[if j < above.length then j else j - 1]? = some (none, child) := by
  have hfloor : ∀ other ∈ (above ++ line :: below).take j, child.level ≤ other.level := by
    simpa using Option.bind_eq_none_iff.1 hnone child hgetj
  by_cases habove : j < above.length
  · rw [if_pos habove]
    have hle := Nat.le_of_lt habove
    rw [List.getElem?_append_left habove] at hgetj
    rw [List.take_append_of_le_length hle] at hfloor
    apply getElem?_nested_of_floor
    · rwa [List.getElem?_append_left habove]
    · rwa [List.take_append_of_le_length hle]
  · obtain ⟨n, rfl⟩ : ∃ n, j = above.length + (n + 1) := ⟨j - above.length - 1, by omega⟩
    rw [if_neg habove]
    have hindex : above.length + (n + 1) - 1 = above.length + n := rfl
    rw [List.getElem?_append_right (by omega), Nat.add_sub_cancel_left] at hgetj
    rw [List.take_length_add_append] at hfloor
    rw [hindex]
    apply getElem?_nested_of_floor
    · rwa [List.getElem?_append_right (by omega), Nat.add_sub_cancel_left]
    · rw [List.take_length_add_append]
      intro other hmem
      apply hfloor
      simp only [List.take_succ_cons, List.mem_append, List.mem_cons] at hmem ⊢
      tauto

/-! ## A rise that the stack does not see -/

/-- A line two levels below the line before it adds one call only, so that what used to enclose the
levels above lies one call too deep. -/
theorem Encloses.missRise {before after : Line} {call : Call} {outer : List Call} {floor : Nat}
    {state : List Call × Option Line} (h : Encloses (call :: outer) floor state)
    (hbefore : state.2 = some before) (hafter : after.level = before.level + 2) :
    Encloses outer floor (enclosing state.1 (some before) after, some after) := by
  obtain ⟨_, inner, hlast, hopen, hdepth⟩ := h
  obtain rfl : before = _ := Option.some.inj (hbefore.symm.trans hlast)
  have hpush : enclosing state.1 (some before) after = before.call :: state.1 :=
    if_pos (show before.level < after.level by omega)
  refine ⟨after, after.call :: (inner ++ [call]), rfl, ?_, ?_⟩
  · simp [hpush, hopen]
  · simp only [List.length_cons, List.length_append, List.length_nil]
    omega

/-- Below a missed rise, the stack is that of the parent. -/
theorem getElem?_nestedFrom_of_missedRise {before after : Line} {upper lower bottom : List Line}
    {stack : List Call} (hupper : DescendsByOne (parent :: upper))
    (hlower : DescendsByOne (after :: (lower ++ [child])))
    (hbefore : before ∈ (parent :: upper).getLast?) (hafter : after.level = before.level + 2)
    (hchild : child.level = parent.level + 1)
    (hbetween : ∀ other ∈ upper ++ after :: lower, child.level ≤ other.level) :
    (nestedFrom stack (some parent) (upper ++ after :: (lower ++ child :: bottom)))[
        upper.length + (lower.length + 1)]? = some (stack.head?, child) := by
  obtain ⟨habove, hbelow⟩ := List.forall_mem_append.1 hbetween
  have hopen : Encloses (parent.call :: stack) child.level (stack, some parent) :=
    hchild ▸ encloses_of_parent parent stack
  have hstate := hopen.stateAfter hupper habove
  have hlast : (stateAfter stack (some parent) upper).2 = some before :=
    (stateAfter_snd stack parent upper).trans hbefore
  rw [getElem?_nestedFrom_append, hlast]
  exact (hstate.missRise hlast hafter).getElem?_nestedFrom hlower
    (List.forall_mem_cons.1 hbelow).2

/-- Where the stack misses a rise, a line below is nested in what its parent is nested in. So of the
pairs of other lines exactly these are lost. -/
theorem getElem?_nested_of_risesThrough (hsteps : DescendsByOne (above ++ line :: below))
    (hparent : IsParent (above ++ line :: below) k j) (hk : k < above.length)
    (hj : above.length < j) (hgetk : (above ++ line :: below)[k]? = some parent)
    (hgetj : (above ++ line :: below)[j]? = some child)
    (hrise : RisesThrough above line below) :
    (nested (above ++ below))[j - 1]? =
      some ((parentOf? (above ++ line :: below) k).map (·.call), child) := by
  have hnested := getElem?_nested hsteps hgetk
  obtain ⟨⟨before, hbefore, hin⟩, after, hafter, hout⟩ := hrise
  obtain ⟨top, upper, lower, bottom, rfl, rfl, rfl, rfl, hlevel, hline, hbetween⟩ :=
    hparent.split_around hk hj hgetk hgetj
  cases lower with
  | nil =>
    obtain rfl : child = after := by simpa using hafter
    omega
  | cons first lower =>
    obtain rfl : first = after := by simpa using hafter
    have htree : top ++ parent :: upper ++ line :: (first :: lower ++ child :: bottom) =
        top ++ parent :: (upper ++ line :: first :: lower ++ child :: bottom) := by simp
    have hwithout : top ++ parent :: upper ++ (first :: lower ++ child :: bottom) =
        top ++ parent :: (upper ++ first :: (lower ++ child :: bottom)) := by simp
    have hindex : top.length + 1 + (upper ++ first :: lower).length + 1 - 1 =
        top.length + (upper.length + (lower.length + 1) + 1) := by
      simp only [List.length_append, List.length_cons]
      omega
    obtain ⟨habove, htail, hstep⟩ := List.isChain_append.1 hsteps
    obtain ⟨hrise, hbelow⟩ := List.isChain_cons_cons.1 htail
    have hfirst : first.level = before.level + 2 := by
      have hstep := hstep before hbefore line rfl
      omega
    have hlast : before ∈ (parent :: upper).getLast? := by simpa using hbefore
    have hupper : DescendsByOne (parent :: upper) := habove.right_of_append
    have hlower : DescendsByOne (first :: (lower ++ [child])) := by
      refine List.IsChain.prefix hbelow ⟨bottom, ?_⟩
      simp
    rw [htree] at hsteps hnested ⊢
    have hchild : child.level = parent.level + 1 :=
      level_eq_of_parent hlevel (by grind) hsteps.segment
    rw [hwithout, hindex, nested, getElem?_nestedFrom_append]
    -- What the parent is nested in is on top of the stack that it was read with.
    have hparent := hnested.symm.trans (getElem?_nestedFrom_append [] none top _ 0)
    simp only [nestedFrom, List.getElem?_cons_zero, Option.some.injEq, Prod.mk.injEq, and_true]
      at hparent
    rw [hparent]
    exact getElem?_nestedFrom_of_missedRise hupper hlower hlast hfirst hchild hbetween

/-! ## A text with a line that can not be read -/

theorem indentation_subset (text : List Char) : (indentation text).2 ⊆ text := by
  fun_induction indentation text with
  | case1 rest ih => exact fun c hc => by simp [ih hc]
  | case2 text => exact List.Subset.refl _

/-- A blank line has no name that could be read. -/
theorem isBlankLine_of_readLine {text : String} (h : readLine text = .ok line) :
    isBlankLine text = false := by
  rw [← Bool.not_eq_true]
  intro hblank
  have hall : ∀ c ∈ text.toList, Text.isBlank c := List.all_eq_true.1 hblank
  have hstart : Text.trimStart (indentation (Text.dropLineBreaks text.toList)).2 = [] := by
    apply List.dropWhile_eq_nil_iff.2
    intro c hc
    exact hall c (Text.dropEndWhile_subset _ _ (indentation_subset _ hc))
  have hcontent : Text.trim (indentation (Text.dropLineBreaks text.toList)).2 = [] := by
    rw [Text.trim, hstart]
    rfl
  simp [readLine, hcontent, Text.firstMatch, nameHere?] at h

variable {upper lower : List String} {text damaged : String} {e : LineError}

theorem treeLines_of_readLine (h : readLine text = .ok line) :
    treeLines (upper ++ text :: lower) = treeLines upper ++ line :: treeLines lower := by
  simp [treeLines, isBlankLine_of_readLine h, h, Except.toOption]

theorem treeLines_of_readLine_error (h : readLine damaged = .error e) :
    treeLines (upper ++ damaged :: lower) = treeLines upper ++ treeLines lower := by
  cases hblank : isBlankLine damaged <;> simp [treeLines, hblank, h, Except.toOption]

theorem lineErrors_of_readLine_error (hlegible : Legible (upper ++ text :: lower))
    (hblank : isBlankLine damaged = false) (h : readLine damaged = .error e) :
    lineErrors (upper ++ damaged :: lower) = [e.atLine (upper.length + 1)] := by
  obtain ⟨hupper, htail⟩ := List.forall_mem_append.1 hlegible
  obtain ⟨-, hlower⟩ := List.forall_mem_cons.1 htail
  have herror : lineError? (damaged, 1 + upper.length) = some (e.atLine (upper.length + 1)) := by
    simp [lineError?, hblank, h, Nat.add_comm]
  rw [lineErrors_eq, List.zipIdx_append, List.zipIdx_cons, List.filterMap_append,
    List.filterMap_cons_some herror, filterMap_lineError?_of_legible hupper,
    filterMap_lineError?_of_legible hlower, List.nil_append]

theorem pairEvent_mem_events {tree : List Line} {n : Nat}
    (h : (nested tree)[n]? = some (some parent.call, child)) (reverse : Bool) :
    pairEvent reverse parent.call child ∈ events reverse tree :=
  List.mem_filterMap.2 ⟨_, List.mem_of_getElem? h, rfl⟩

variable {α : Type} {files : FileTree} {source : Source}

/-- A line that can not be read in place of one that could is the only error, and every other line
keeps what it is nested in, but for the lines below the lost line whose parent is above it if the
levels rise both into the lost line and out of it. -/
theorem load_of_damaged (options : Options)
    (hread : source.allLines files = .ok (upper ++ damaged :: lower))
    (hlegible : Legible (upper ++ text :: lower)) (hline : readLine text = .ok line)
    (hsteps : DescendsByOne (treeLines (upper ++ text :: lower)))
    (hblank : isBlankLine damaged = false) (hdamaged : readLine damaged = .error e) :
    treeLines (upper ++ text :: lower) = treeLines upper ++ line :: treeLines lower ∧
    treeLines (upper ++ damaged :: lower) = treeLines upper ++ treeLines lower ∧
    (∀ reverse, load files source reverse options =
      .ok (CallGraph.ofTrace source.describe .cflow options
        ⟨events reverse (treeLines upper ++ treeLines lower), [e.atLine (upper.length + 1)]⟩ :
        CallGraph α)) ∧
    (∀ k j parent child, IsParent (treeLines (upper ++ text :: lower)) k j →
      (treeLines (upper ++ text :: lower))[k]? = some parent →
      (treeLines (upper ++ text :: lower))[j]? = some child →
      k ≠ (treeLines upper).length → j ≠ (treeLines upper).length →
      ¬ (k < (treeLines upper).length ∧ (treeLines upper).length < j ∧
        RisesThrough (treeLines upper) line (treeLines lower)) →
      (nested (treeLines upper ++ treeLines lower))[
          if j < (treeLines upper).length then j else j - 1]? = some (some parent.call, child) ∧
        ∀ reverse, pairEvent reverse parent.call child ∈
          events reverse (treeLines upper ++ treeLines lower)) ∧
    ∀ j child, (treeLines (upper ++ text :: lower))[j]? = some child →
      parentOf? (treeLines (upper ++ text :: lower)) j = none → j ≠ (treeLines upper).length →
      (nested (treeLines upper ++ treeLines lower))[
        if j < (treeLines upper).length then j else j - 1]? = some (none, child) := by
  have htree : treeLines (upper ++ text :: lower) = treeLines upper ++ line :: treeLines lower :=
    treeLines_of_readLine hline
  have hwithout : treeLines (upper ++ damaged :: lower) = treeLines upper ++ treeLines lower :=
    treeLines_of_readLine_error hdamaged
  rw [htree] at hsteps ⊢
  refine ⟨rfl, hwithout, fun reverse => ?_,
    fun k j parent child hparent hgetk hgetj hk hj hrise => ?_,
    fun j child hgetj hnone hj => getElem?_nested_without_of_none hj hgetj hnone⟩
  · rw [load, hread, ← hwithout, ← lineErrors_of_readLine_error hlegible hblank hdamaged]
    rfl
  · have hnested := getElem?_nested_without hsteps hparent hgetk hgetj hk hj
      fun habove hbelow hthrough => hrise ⟨habove, hbelow, hthrough⟩
    exact ⟨hnested, pairEvent_mem_events hnested⟩

def mainText : String := "main() <int main (void) at ./a.c:1>:"
def parseText : String := "    parse() <void parse (void) at ./a.c:10>:"
def printText : String := "        printf()"
def reportText : String := "    report() <void report (void) at ./a.c:30>:"
def damagedText : String := "    ???"

def mainLine : Line := ⟨⟨"main", "./a.c", .c, .function⟩, 0, false⟩
def parseLine : Line := ⟨⟨"parse", "./a.c", .c, .function⟩, 1, false⟩
def reportLine : Line := ⟨⟨"report", "./a.c", .c, .function⟩, 1, false⟩

/-- A lost line with nothing nested in it costs nothing else. -/
theorem report_of_damagedLeaf :
    (Source.text (mainText ++ "\n" ++ damagedText ++ "\n" ++ reportText)).allLines [] =
      .ok ([mainText] ++ damagedText :: [reportText]) ∧
    Legible ([mainText] ++ parseText :: [reportText]) ∧ readLine parseText = .ok parseLine ∧
    DescendsByOne (treeLines ([mainText] ++ parseText :: [reportText])) ∧
    isBlankLine damagedText = false ∧
    readLine damagedText = .error ⟨.cflow, .noName, damagedText, 0⟩ ∧
    .call mainLine.call reportLine.call ∈
      events false (treeLines [mainText] ++ treeLines [reportText]) := by
  have hread : (Source.text (mainText ++ "\n" ++ damagedText ++ "\n" ++ reportText)).allLines [] =
      .ok ([mainText] ++ damagedText :: [reportText]) := by decide +kernel
  have hlegible : Legible ([mainText] ++ parseText :: [reportText]) := by decide +kernel
  have hline : readLine parseText = .ok parseLine := by decide +kernel
  have hsteps : DescendsByOne (treeLines ([mainText] ++ parseText :: [reportText])) := by
    decide +kernel
  have hblank : isBlankLine damagedText = false := by decide +kernel
  have hdamaged : readLine damagedText = .error ⟨.cflow, .noName, damagedText, 0⟩ := by
    decide +kernel
  obtain ⟨-, -, -, hkept, -⟩ :=
    load_of_damaged (α := Rat) {} hread hlegible hline hsteps hblank hdamaged
  have hparent : IsParent (treeLines ([mainText] ++ parseText :: [reportText])) 0 2 :=
    ⟨[], mainLine, [parseLine], reportLine, [], by decide +kernel, rfl, rfl, by decide, by decide⟩
  have hkept := hkept 0 2 mainLine reportLine hparent (by decide +kernel) (by decide +kernel)
    (by decide +kernel) (by decide +kernel) (by decide +kernel)
  exact ⟨hread, hlegible, hline, hsteps, hblank, hdamaged, hkept.2 false⟩

/-- Where something is nested in the lost line, the stack misses a rise, and the next line of the
level of the lost one is nested in nothing. -/
theorem report_of_damagedBranch :
    Legible [mainText, parseText, printText, reportText] ∧
    DescendsByOne (treeLines [mainText, parseText, printText, reportText]) ∧
    (treeLines [mainText, parseText, printText, reportText]).head? = some mainLine ∧
    mainLine.level = 0 ∧
    IsParent (treeLines [mainText, parseText, printText, reportText]) 0 3 ∧
    (treeLines [mainText, parseText, printText, reportText])[3]? = some reportLine ∧
    isBlankLine damagedText = false ∧ (readLine damagedText).isOk = false ∧
    (nested (treeLines [mainText, damagedText, printText, reportText]))[2]? =
      some (none, reportLine) ∧
    .call mainLine.call reportLine.call ∉
      (trace false [mainText, damagedText, printText, reportText]).events := by
  have hparent : IsParent (treeLines [mainText, parseText, printText, reportText]) 0 3 :=
    ⟨[], mainLine, [parseLine, ⟨⟨"printf", "", .c, .function⟩, 2, false⟩], reportLine, [],
      by decide +kernel, rfl, rfl, by decide, by decide⟩
  exact ⟨by decide +kernel, by decide +kernel, by decide +kernel, rfl, hparent, by decide +kernel,
    by decide +kernel, by decide +kernel, by decide +kernel, by decide +kernel⟩

end AttackSurface.Cflow
