import AttackSurface.Cflow.Line
import AttackSurface.Proofs.Text

/-! Lines as GNU cflow prints them. The level and the name are always read back. The path is taken
to start after the first `at` with a blank behind it, so that it is read back unless there is one
in the declaration, as in `float r`. -/
namespace AttackSurface.Cflow

/-! ## What is printed -/

/-- A decimal number. -/
structure Numeral where
  digits : List Char
  nonempty : digits ≠ []
  isDigit : ∀ c ∈ digits, c.isDigit

/-- What follows the place of a function: nothing, a colon where its calls are nested below, the
mark of a recursive function, or the line where its calls were printed. -/
inductive Ending where
  | leaf
  | calls
  | recursive
  | seen (line : Numeral)

def Ending.text : Ending → List Char
  | .leaf => []
  | .calls => [':']
  | .recursive => " (R):".toList
  | .seen line => " (recursive: see ".toList ++ line.digits ++ [')']

def isPrintable (c : Char) : Bool := 0x20 ≤ c.toNat && c.toNat < 0x7f

/-- A line that tells the place of a function. -/
structure Printed where
  level : Nat
  name : List Char
  declaration : List Char
  path : List Char
  line : Numeral
  ending : Ending
  name_nonempty : name ≠ []
  name_word : ∀ c ∈ name, c.isAlphanum || c == '_'
  declaration_printable : ∀ c ∈ declaration, isPrintable c
  declaration_plain : '<' ∉ declaration ∧ '>' ∉ declaration
  path_nonempty : path ≠ []
  path_plain : '>' ∉ path
  path_dense : ∀ c ∈ path, ¬ Text.isBlank c

/-- What stands right before a path. -/
def announcement : List Char := ['a', 't', ' ']

namespace Printed

variable (p : Printed)

/-- What stands before the declaration. -/
def opening : List Char := p.name ++ ['(', ')', ' ', '<']

/-- What stands in angle brackets, without the line number. -/
def place : List Char := p.declaration ++ ' ' :: (announcement ++ p.path)

/-- What stands after the path. -/
def tail : List Char := ':' :: (p.line.digits ++ '>' :: p.ending.text)

/-- What is printed after the indentation. -/
def content : List Char := p.opening ++ (p.place ++ p.tail)

def text : String := String.ofList (List.replicate (4 * p.level) ' ' ++ p.content)

end Printed

variable {text before after signature : List Char} {c : Char}

/-! ## Characters -/

theorem eq_space_of_isBlank (hprintable : isPrintable c) (h : Text.isBlank c) : c = ' ' := by
  simp only [isPrintable, Bool.and_eq_true, decide_eq_true_eq] at hprintable
  obtain ⟨range, hrange, hstart, hend⟩ := Text.CharRanges.contains_iff.1 h
  have hspace : c.toNat = 0x20 := by
    simp only [Text.blankRanges, List.mem_cons, List.not_mem_nil, or_false] at hrange
    rcases hrange with rfl | rfl | rfl | rfl | rfl | rfl | rfl | rfl | rfl | rfl <;>
      simp only at hstart hend <;> omega
  exact Char.toNat_inj.1 hspace

theorem isWordChar_of_word (h : c.isAlphanum || c == '_') : Text.isWordChar c := by
  have hascii : c.toNat < 0x80 := (Text.toNat_of_word h).2.trans (by decide)
  rwa [Text.isWordChar, if_pos hascii]

theorem not_isBlank_of_word (h : c.isAlphanum || c == '_') : ¬ Text.isBlank c :=
  Text.not_isBlank_of_isWordChar (isWordChar_of_word h)

theorem isDecimalDigit_of_isDigit (h : c.isDigit) : Text.isDecimalDigit c := by
  have hascii : c.toNat < 0x80 :=
    (Text.toNat_of_word (by simp [Char.isAlphanum, h])).2.trans (by decide)
  rwa [Text.isDecimalDigit, if_pos hascii]

/-! ## The first announcement of a path -/

/-- An announcement does not overlap another one. -/
theorem announcement_infix_append (text : List Char) :
    announcement <:+: text ++ ['a', 't'] ↔ announcement <:+: text := by
  have hend (c : Char) (hc : ' ' ≠ c) (text : List Char) :
      announcement <:+: text ++ [c] ↔ announcement <:+: text := by
    refine List.infix_concat_iff.trans (or_iff_right fun hsuffix => ?_)
    rcases List.suffix_concat_iff.1 hsuffix with hnil | ⟨start, hstart, -⟩
    · cases hnil
    · have hlast := congrArg List.getLast? hstart
      rw [List.getLast?_concat] at hlast
      exact hc (Option.some.inj hlast)
  rw [← List.singleton_append, ← List.append_assoc, hend 't' (by decide), hend 'a' (by decide)]

theorem exists_of_pathHere? {path : List Char} (h : pathHere? text = some path) :
    ∃ c rest, text = 'a' :: 't' :: c :: rest ∧ Text.isBlank c := by
  unfold pathHere? at h
  split at h
  · rename_i c rest hafter
    split at h
    · rename_i hblank
      exact ⟨c, rest, Text.after?_eq_some hafter, hblank⟩
    · cases h
  · cases h

/-- No path starts in what stands before the first announcement. -/
theorem pathHere?_eq_none {part : List Char}
    (hspace : ∀ c ∈ before, Text.isBlank c → c = ' ') (hfirst : ¬ announcement <:+: before)
    (hpart : part <:+ before) (hnonempty : part ≠ []) :
    pathHere? (part ++ (announcement ++ after)) = none := by
  rw [Option.eq_none_iff_forall_ne_some]
  intro path hpath
  obtain ⟨c, rest, htext, hblank⟩ := exists_of_pathHere? hpath
  -- What was found here starts in `part`, so that its blank is not behind the announcement.
  have hlength : ['a', 't', c].length ≤ (part ++ ['a', 't']).length := by
    have hpos := List.length_pos_iff.2 hnonempty
    simp only [List.length_append, List.length_cons, List.length_nil]
    omega
  have hstart : part ++ ['a', 't'] <+: part ++ (announcement ++ after) :=
    ⟨' ' :: after, by rw [List.append_assoc]; rfl⟩
  have hhead : ['a', 't', c] <+: part ++ ['a', 't'] :=
    List.prefix_of_prefix_length_le ⟨rest, htext.symm⟩ hstart hlength
  have hmark : ['a', 't', c] <:+: before ++ ['a', 't'] :=
    hhead.isInfix.trans (List.suffix_append_self_iff.2 hpart).isInfix
  have hmem : c ∈ ['a', 't', c] := by simp
  have hc : c = ' ' := by
    rcases List.mem_append.1 (hmark.subset hmem) with hbefore | hat
    · exact hspace c hbefore hblank
    · rcases List.mem_pair.1 hat with rfl | rfl <;> exact absurd hblank (by decide)
  subst hc
  exact hfirst ((announcement_infix_append before).1 hmark)

/-! ## Indentation, name and line number -/

theorem indentation_replicate (level : Nat) (hstart : text.head? ≠ some ' ') :
    indentation (List.replicate (4 * level) ' ' ++ text) = (level, text) := by
  induction level with
  | zero =>
    have hnone : indentation text = (0, text) := by
      unfold indentation
      split
      · exact absurd rfl hstart
      · rfl
    exact hnone
  | succ level ih =>
    have hgroup : List.replicate (4 * (level + 1)) ' ' ++ text =
        ' ' :: ' ' :: ' ' :: ' ' :: (List.replicate (4 * level) ' ' ++ text) := rfl
    rw [hgroup, indentation, ih]

theorem nameHere?_append {name : List Char} (hnonempty : name ≠ [])
    (hword : ∀ c ∈ name, Text.isWordChar c) (rest : List Char) :
    nameHere? (name ++ '(' :: ')' :: rest) = some name := by
  have htake : (name ++ '(' :: ')' :: rest).takeWhile Text.isWordChar = name := by
    rw [List.takeWhile_append_of_pos hword, List.takeWhile_cons_of_neg (by decide),
      List.append_nil]
  have hdrop : (name ++ '(' :: ')' :: rest).drop name.length = '(' :: ')' :: rest :=
    List.drop_left
  have hafter : Text.after? ['(', ')'] ('(' :: ')' :: rest) = some rest := rfl
  simp only [nameHere?, htake, hdrop, hafter, Option.isSome_some, hnonempty, ne_eq,
    not_false_eq_true, and_self, if_true]

theorem exists_of_startsWithLineNumber (h : startsWithLineNumber text) :
    ∃ rest, text = ':' :: rest ∧ '>' ∈ rest := by
  unfold startsWithLineNumber at h
  split at h
  · rename_i rest
    refine ⟨rest, rfl, ?_⟩
    obtain ⟨after, hafter, hhead⟩ := (Option.any_eq_true _ _).1 h
    rw [Text.afterRun?, Option.ite_none_right_eq_some] at hafter
    obtain ⟨-, ⟨⟩⟩ := hafter
    exact (List.dropWhile_sublist _).subset (List.mem_of_mem_head? (of_decide_eq_true hhead))
  · cases h

namespace Printed

variable {p : Printed}

/-! ## The characters of a printed line -/

theorem not_isBlank_of_mem_name (h : c ∈ p.name) : ¬ Text.isBlank c :=
  not_isBlank_of_word (p.name_word c h)

theorem eq_space_of_mem_place (h : c ∈ p.place) (hblank : Text.isBlank c) : c = ' ' := by
  simp only [place, announcement, List.mem_append, List.mem_cons, List.not_mem_nil,
    or_false] at h
  rcases h with hdeclaration | rfl | (rfl | rfl | rfl) | hpath
  · exact eq_space_of_isBlank (p.declaration_printable c hdeclaration) hblank
  · rfl
  · exact absurd hblank (by decide)
  · exact absurd hblank (by decide)
  · rfl
  · exact absurd hblank (p.path_dense c hpath)

/-- The only blank before a path is the space. -/
theorem eq_space_of_mem_opening (hplace : p.place = before ++ (announcement ++ signature))
    (h : c ∈ p.opening ++ before) (hblank : Text.isBlank c) : c = ' ' := by
  simp only [opening, List.mem_append, List.mem_cons, List.not_mem_nil, or_false] at h
  rcases h with (hname | rfl | rfl | rfl | rfl) | hbefore
  · exact absurd hblank (not_isBlank_of_mem_name hname)
  · exact absurd hblank (by decide)
  · exact absurd hblank (by decide)
  · rfl
  · exact absurd hblank (by decide)
  · exact eq_space_of_mem_place (hplace ▸ List.mem_append_left _ hbefore) hblank

theorem not_isBlank_of_head? (hc : c ∈ p.content.head?) : ¬ Text.isBlank c := by
  rw [content, opening, List.append_assoc, List.head?_append_of_ne_nil _ p.name_nonempty] at hc
  exact not_isBlank_of_mem_name (List.mem_of_mem_head? hc)

/-- A line ends with a bracket or a colon. -/
theorem not_isBlank_of_getLast? (hc : c ∈ p.content.getLast?) : ¬ Text.isBlank c := by
  have hending : ∃ start last, '>' :: p.ending.text = start ++ [last] ∧ ¬ Text.isBlank last := by
    cases p.ending with
    | leaf => exact ⟨[], '>', rfl, by decide⟩
    | calls => exact ⟨['>'], ':', rfl, by decide⟩
    | recursive => exact ⟨"> (R)".toList, ':', rfl, by decide⟩
    | seen line => exact ⟨"> (recursive: see ".toList ++ line.digits, ')', rfl, by decide⟩
  obtain ⟨start, last, hend, hlast⟩ := hending
  have hcontent : p.content = p.opening ++ (p.place ++ ':' :: (p.line.digits ++ start)) ++ [last] := by
    simp only [content, tail, hend, List.append_assoc, List.cons_append]
  rw [hcontent, List.getLast?_concat] at hc
  exact Option.some.inj hc ▸ hlast

variable (p)

theorem content_ne_nil : p.content ≠ [] :=
  List.append_ne_nil_of_left_ne_nil (List.append_ne_nil_of_left_ne_nil p.name_nonempty _) _

theorem trim_content : Text.trim p.content = p.content :=
  Text.trim_of_dense (fun _ => not_isBlank_of_head?) fun _ => not_isBlank_of_getLast?

theorem dropLineBreaks_text :
    Text.dropLineBreaks p.text.toList = List.replicate (4 * p.level) ' ' ++ p.content := by
  rw [text, String.toList_ofList]
  refine Text.dropLineBreaks_of_getLast? fun c hc => ?_
  rw [List.getLast?_append_of_ne_nil _ p.content_ne_nil] at hc
  exact not_isBlank_of_getLast? hc

theorem indentation_text :
    indentation (List.replicate (4 * p.level) ' ' ++ p.content) = (p.level, p.content) :=
  indentation_replicate p.level fun hspace => not_isBlank_of_head? hspace (by decide)

/-! ## What is found in a printed line -/

theorem firstMatch_nameHere? : Text.firstMatch nameHere? p.content = some p.name := by
  have hword : ∀ c ∈ p.name, Text.isWordChar c := fun c hc =>
    isWordChar_of_word (p.name_word c hc)
  have hcontent : p.content = p.name ++ '(' :: ')' :: ' ' :: '<' :: (p.place ++ p.tail) := by
    simp only [content, opening, List.append_assoc, List.cons_append, List.nil_append]
  rw [hcontent]
  exact Text.firstMatch_of_some (nameHere?_append p.name_nonempty hword _)

theorem gt_notMem_ending : '>' ∉ p.ending.text := by
  cases p.ending with
  | leaf => exact List.not_mem_nil
  | calls => decide
  | recursive => decide
  | seen line =>
    intro hmem
    rcases List.mem_append.1 hmem with hmem | hmem
    · rcases List.mem_append.1 hmem with hmem | hmem
      · exact absurd hmem (by decide)
      · exact absurd (line.isDigit _ hmem) (by decide)
    · exact absurd hmem (by decide)

theorem startsWithLineNumber_tail : startsWithLineNumber p.tail := by
  have hafter : Text.afterRun? Text.isDecimalDigit (p.line.digits ++ '>' :: p.ending.text) =
      some ('>' :: p.ending.text) :=
    Text.afterRun?_append p.line.nonempty
      (fun c hc => isDecimalDigit_of_isDigit (p.line.isDigit c hc)) (by decide)
  simp only [tail, startsWithLineNumber, hafter]
  rfl

/-- No second line number follows the one that is printed. -/
theorem startsWithLineNumber_eq_false {part : List Char}
    (h : part <:+ p.line.digits ++ '>' :: p.ending.text) : startsWithLineNumber part = false := by
  rw [← Bool.not_eq_true]
  intro hnumber
  obtain ⟨rest, rfl, hrest⟩ := exists_of_startsWithLineNumber hnumber
  obtain ⟨start, hstart⟩ := h
  -- Its colon would stand among the digits, or where no bracket follows any more.
  rcases List.append_eq_append_iff.1 hstart with ⟨digits, hdigits, hcut⟩ | ⟨after, -, hcut⟩
  · rcases List.cons_eq_append_iff.1 hcut with ⟨-, hcut⟩ | ⟨digits, rfl, -⟩
    · cases hcut
    · have hmem : ':' ∈ p.line.digits := hdigits ▸ List.mem_append_right start List.mem_cons_self
      exact absurd (p.line.isDigit _ hmem) (by decide)
  · rcases List.cons_eq_append_iff.1 hcut with ⟨-, hcut⟩ | ⟨after, -, hcut⟩
    · cases hcut
    · have hmem := List.mem_append_right after (List.mem_cons_of_mem ':' hrest)
      exact p.gt_notMem_ending (hcut ▸ hmem)

theorem longestBefore_tail :
    Text.longestBefore (· != '\n') startsWithLineNumber p.tail = some [] := by
  have hnone : Text.longestBefore (· != '\n') startsWithLineNumber
      (p.line.digits ++ '>' :: p.ending.text) = none :=
    Text.longestBefore_eq_none fun part hpart => p.startsWithLineNumber_eq_false hpart
  have hhere := p.startsWithLineNumber_tail
  rw [tail] at hhere
  rw [tail, Text.longestBefore, hnone, ite_self, hhere]
  rfl

theorem pathHere?_tail (hsignature : ∀ c ∈ signature, c ≠ '\n') :
    pathHere? (announcement ++ (signature ++ p.tail)) = some signature := by
  have hinside : ∀ c ∈ signature, (c != '\n') = true := fun c hc => bne_iff_ne.2 (hsignature c hc)
  have hrun := Text.longestBefore_append hinside p.longestBefore_tail
  rw [List.append_nil] at hrun
  exact hrun

/-- No path is announced before the declaration. -/
theorem infix_of_infix_opening (h : announcement <:+: p.opening ++ before) :
    announcement <:+: before := by
  have hsplit : p.opening ++ before = (p.name ++ '(' :: [')', ' ']) ++ '<' :: before := by
    simp only [opening, List.append_assoc, List.cons_append, List.nil_append]
  rw [hsplit] at h
  refine (Text.infix_or_infix (by decide) h).resolve_left fun hname => ?_
  rcases Text.infix_or_infix (by decide) hname with hname | hshort
  · have hmem : ' ' ∈ p.name := hname.subset (by decide)
    exact not_isBlank_of_mem_name hmem (by decide)
  · exact absurd hshort.length_le (by decide)

theorem firstMatch_pathHere? (hplace : p.place = before ++ (announcement ++ signature))
    (hfirst : ¬ announcement <:+: before) :
    Text.firstMatch pathHere? p.content = some signature := by
  have hbreak : ∀ c ∈ signature, c ≠ '\n' := by
    rintro c hc rfl
    have hmem : '\n' ∈ p.place := by
      rw [hplace]
      exact List.mem_append_right _ (List.mem_append_right _ hc)
    exact absurd (eq_space_of_mem_place hmem (by decide)) (by decide)
  have hcontent : p.content = (p.opening ++ before) ++ (announcement ++ (signature ++ p.tail)) := by
    simp only [content, hplace, List.append_assoc]
  rw [hcontent, Text.firstMatch_append fun part hpart hnonempty =>
    pathHere?_eq_none (fun _ hc hblank => eq_space_of_mem_opening hplace hc hblank)
      (fun h => hfirst (p.infix_of_infix_opening h)) hpart hnonempty]
  exact Text.firstMatch_of_some (p.pathHere?_tail hbreak)

theorem signature_eq_iff (hplace : p.place = before ++ (announcement ++ signature))
    (hfirst : ¬ announcement <:+: before) :
    signature = p.path ↔ ¬ announcement <:+: p.declaration ++ [' '] := by
  have hplace' : before ++ (announcement ++ signature) =
      (p.declaration ++ [' ']) ++ (announcement ++ p.path) := by
    rw [← hplace, place, List.append_assoc]
    rfl
  constructor
  · rintro rfl
    rwa [← List.append_cancel_right hplace']
  · intro hdeclaration
    have hlength : before.length = (p.declaration ++ [' ']).length :=
      Nat.le_antisymm
        (Text.length_le_of_first hplace'.symm fun h => hfirst ((announcement_infix_append _).1 h))
        (Text.length_le_of_first hplace' fun h =>
          hdeclaration ((announcement_infix_append _).1 h))
    exact List.append_cancel_left (List.append_inj hplace' hlength).2

end Printed

/-- A printed line is read with its level and its name. What follows the first announcement is read
as the path; that is the path which was printed exactly if the declaration holds no announcement. -/
theorem readLine_printed (p : Printed) :
    ∃ before signature, p.place = before ++ (announcement ++ signature) ∧
      ¬ announcement <:+: before ∧
      readLine p.text = .ok
        { call := { name := String.ofList p.name, signature := String.ofList signature }
          level := p.level
          recursive := isMarkedRecursive p.content } ∧
      (signature = p.path ↔ ¬ announcement <:+: p.declaration ++ [' ']) := by
  have hannounced : announcement <:+: p.place :=
    ⟨p.declaration ++ [' '], p.path, by
      simp only [Printed.place, List.append_assoc, List.cons_append, List.nil_append]⟩
  obtain ⟨before, signature, hplace, hfirst⟩ := Text.exists_first (by decide) hannounced
  have hfirst : ¬ announcement <:+: before := fun h =>
    hfirst ((announcement_infix_append before).2 h)
  refine ⟨before, signature, hplace, hfirst, ?_, p.signature_eq_iff hplace hfirst⟩
  simp only [readLine, p.dropLineBreaks_text, p.indentation_text, p.trim_content,
    p.firstMatch_nameHere?, p.firstMatch_pathHere? hplace hfirst, Option.getD_some]

/-- The line of a function that takes a `float`. -/
def Printed.floatParameter : Printed where
  level := 0
  name := "half".toList
  declaration := "int half (float r)".toList
  path := "./geometry.c".toList
  line := ⟨"12".toList, by decide, List.all_eq_true.1 (by decide)⟩
  ending := .calls
  name_nonempty := by decide
  name_word := List.all_eq_true.1 (by decide)
  declaration_printable := List.all_eq_true.1 (by decide)
  declaration_plain := by decide
  path_nonempty := by decide
  path_plain := by decide
  path_dense := List.any_eq_false.1 (by decide)

/-- The type of the parameter announces a path, so that another one is read than was printed. -/
theorem readLine_floatParameter :
    readLine Printed.floatParameter.text = .ok
        { call := { name := "half", signature := "r) at ./geometry.c" }
          level := 0
          recursive := false } ∧
      String.ofList Printed.floatParameter.path = "./geometry.c" :=
  ⟨by decide, by decide⟩

end AttackSurface.Cflow
