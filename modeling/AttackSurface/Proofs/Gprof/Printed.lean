import AttackSurface.Gprof.Line
import AttackSurface.Proofs.Text

/-! Lines as GNU gprof prints them. The name is always read back, and the path where a place is
printed, whatever colons and parentheses it holds: no run without blanks reaches past the address.
The lines that are not read are told by what stands in the column of the name. -/
namespace AttackSurface.Gprof

/-! ## What is printed -/

/-- The number of a cycle or of an entry. All that matters is that it opens no parenthesis. -/
structure Tag where
  text : List Char
  plain : '(' ∉ text

def Tag.within (opening : List Char) (closing : Char) (tag : Tag) : List Char :=
  ' ' :: (opening ++ tag.text ++ [closing])

def Tag.cycle : Tag → List Char := Tag.within "<cycle ".toList '>'

def Tag.index : Tag → List Char := Tag.within ['['] ']'

/-- Where a function is defined, and where it is loaded. -/
structure Place where
  path : List Char
  line : List Char
  address : List Char
  path_nonempty : path ≠ []
  path_dense : ∀ c ∈ path, ¬ Text.isBlank c
  line_nonempty : line ≠ []
  line_digits : ∀ c ∈ line, Text.isDecimalDigit c
  address_nonempty : address ≠ []
  address_digits : ∀ c ∈ address, Text.isHexDigit c

namespace Place

variable (place : Place)

/-- What stands after the line number. -/
def tail : List Char := " @ ".toList ++ (place.address ++ [')'])

/-- What stands in parentheses. -/
def content : List Char := place.path ++ ':' :: (place.line ++ place.tail)

def text : List Char := ' ' :: '(' :: place.content

end Place

/-- A line of a call graph block. -/
structure Printed where
  columns : List Char
  spaces : Nat
  name : List Char
  cycle : Option Tag
  place : Option Place
  index : Option Tag
  breaks : List Char
  columns_bytes : Text.byteLength columns = nameColumn
  name_nonempty : name ≠ []
  name_chars : ∀ c ∈ name, isNameChar c
  breaks_plain : ∀ c ∈ breaks, c = '\n' ∨ c = '\r'

namespace Printed

variable (p : Printed)

/-- What stands before the place. -/
def opening : List Char := p.name ++ p.cycle.elim [] Tag.cycle

/-- What stands after the place. -/
def ending : List Char := p.index.elim [] Tag.index

def field : List Char := p.opening ++ (p.place.elim [] Place.text ++ p.ending)

/-- The line without its end. -/
def content : List Char := p.columns ++ (List.replicate p.spaces ' ' ++ p.field)

def text : String := String.ofList (p.content ++ p.breaks)

/-- What the line tells. -/
def call : Call where
  name := String.ofList p.name
  signature := String.ofList (p.place.elim [] Place.path)

end Printed

variable {text before rest : List Char} {c : Char}

theorem not_isBlank_of_isNameChar (h : isNameChar c) : ¬ Text.isBlank c := by
  rcases Bool.or_eq_true_iff.1 h with hword | hdot
  · exact Text.not_isBlank_of_isWordChar hword
  · rw [beq_iff_eq.1 hdot]
    decide

/-! ## The place -/

theorem pathHere?_eq_none (h : text.head? ≠ some '(') : pathHere? text = none := by
  have hafter : Text.after? ['('] text = none := by
    cases text with
    | nil => rfl
    | cons c rest => exact if_neg fun (hc : '(' = c) => h (hc ▸ rfl)
  rw [pathHere?, hafter]
  rfl

/-- No place is found before the first parenthesis. -/
theorem firstMatch_pathHere?_append (h : '(' ∉ before) :
    Text.firstMatch pathHere? (before ++ rest) = Text.firstMatch pathHere? rest := by
  refine Text.firstMatch_append fun part hpart hnonempty => pathHere?_eq_none ?_
  obtain ⟨c, part, rfl⟩ := List.exists_cons_of_ne_nil hnonempty
  rintro ⟨⟩
  exact h (hpart.subset List.mem_cons_self)

namespace Place

variable (place : Place)

theorem startsWithAddress_line (rest : List Char) :
    startsWithAddress (':' :: (place.line ++ (place.tail ++ rest))) := by
  have hline : Text.afterRun? Text.isDecimalDigit (place.line ++ (place.tail ++ rest)) =
      some (place.tail ++ rest) :=
    Text.afterRun?_append place.line_nonempty place.line_digits (by decide)
  have htail : place.tail ++ rest = " @ ".toList ++ (place.address ++ ')' :: rest) := by
    simp only [tail, List.append_assoc, List.singleton_append]
  have hat : Text.after? [' ', '@', ' '] (place.tail ++ rest) =
      some (place.address ++ ')' :: rest) := by
    rw [htail]
    rfl
  have haddress : Text.afterRun? Text.isHexDigit (place.address ++ ')' :: rest) =
      some (')' :: rest) :=
    Text.afterRun?_append place.address_nonempty place.address_digits (by decide)
  simp only [startsWithAddress, hline, Option.bind_some, hat, haddress]
  rfl

/-- No other address starts before the first blank behind a path. -/
theorem longestBefore_line (rest : List Char) :
    Text.longestBefore (fun c => !Text.isBlank c) startsWithAddress
      (place.line ++ (place.tail ++ rest)) = none := by
  refine Text.longestBefore_append_eq_none (fun part hpart hnonempty => ?_) rfl
  obtain ⟨c, part, rfl⟩ := List.exists_cons_of_ne_nil hnonempty
  have hdigit : Text.isDecimalDigit c := place.line_digits c (hpart.subset List.mem_cons_self)
  rw [List.cons_append, startsWithAddress]
  rintro part ⟨⟩
  exact absurd hdigit (by decide)

theorem longestBefore_content (rest : List Char) :
    Text.longestBefore (fun c => !Text.isBlank c) startsWithAddress (place.content ++ rest) =
      some place.path := by
  have hinside : ∀ c ∈ place.path, (!Text.isBlank c) = true := fun c hc =>
    Bool.not_eq_true' _ ▸ Bool.eq_false_iff.2 (place.path_dense c hc)
  have hhere : Text.longestBefore (fun c => !Text.isBlank c) startsWithAddress
      (':' :: (place.line ++ (place.tail ++ rest))) = some [] := by
    rw [Text.longestBefore, place.longestBefore_line rest, ite_self,
      if_pos (place.startsWithAddress_line rest)]
  have hrun := Text.longestBefore_append hinside hhere
  rw [List.append_nil] at hrun
  simpa only [content, List.append_assoc, List.cons_append] using hrun

theorem pathHere?_content (rest : List Char) :
    pathHere? ('(' :: (place.content ++ rest)) = some place.path := by
  have hafter : Text.after? ['('] ('(' :: (place.content ++ rest)) =
      some (place.content ++ rest) := rfl
  obtain ⟨c, path, hpath⟩ := List.exists_cons_of_ne_nil place.path_nonempty
  rw [pathHere?, hafter, Option.bind_some, place.longestBefore_content rest, hpath]

end Place

/-! ## What is found in a printed line -/

/-- Is the text empty, or set off by a space with no blank at its end? -/
inductive IsSetOff : List Char → Prop where
  | nil : IsSetOff []
  | part (inner : List Char) {c : Char} (hc : ¬ Text.isBlank c) : IsSetOff (' ' :: (inner ++ [c]))

theorem IsSetOff.append (hbefore : IsSetOff before) (hrest : IsSetOff rest) :
    IsSetOff (before ++ rest) := by
  cases hbefore with
  | nil => exact hrest
  | part inner hc =>
    cases hrest with
    | nil => exact List.append_nil _ ▸ .part inner hc
    | part inner' hc' =>
      rename_i c c'
      have hpart := IsSetOff.part (inner ++ [c] ++ ' ' :: inner') hc'
      rwa [List.append_assoc, List.cons_append] at hpart

/-- What holds of the empty text and of a part that is printed, holds where it may be missing. -/
theorem elim_of {α : Type} {write : α → List Char} {P : List Char → Prop} (hnone : P [])
    (hsome : ∀ a, P (write a)) (part : Option α) : P (part.elim [] write) := by
  cases part with
  | none => exact hnone
  | some a => exact hsome a

theorem Tag.isSetOff_within (opening : List Char) (hclosing : ¬ Text.isBlank c) (tag : Tag) :
    IsSetOff (tag.within opening c) :=
  .part (opening ++ tag.text) hclosing

theorem Tag.notMem_within {opening : List Char} (hopening : '(' ∉ opening) (hclosing : '(' ≠ c)
    (tag : Tag) : '(' ∉ tag.within opening c := by
  simp only [within, List.mem_cons, List.mem_append, not_or]
  exact ⟨by decide, ⟨hopening, tag.plain⟩, hclosing, List.not_mem_nil⟩

theorem Place.isSetOff_text (place : Place) : IsSetOff place.text := by
  have hpart := IsSetOff.part
    ('(' :: (place.path ++ ':' :: (place.line ++ (" @ ".toList ++ place.address)))) (c := ')')
    (by decide)
  simpa only [text, content, tail, List.append_assoc, List.cons_append] using hpart

namespace Printed

variable (p : Printed)

theorem exists_field : ∃ parts, p.field = p.name ++ parts ∧ IsSetOff parts :=
  ⟨p.cycle.elim [] Tag.cycle ++ (p.place.elim [] Place.text ++ p.ending), List.append_assoc _ _ _,
    (elim_of .nil (Tag.isSetOff_within _ (by decide)) p.cycle).append
      ((elim_of .nil Place.isSetOff_text p.place).append
        (elim_of .nil (Tag.isSetOff_within _ (by decide)) p.index))⟩

theorem takeWhile_field : p.field.takeWhile isNameChar = p.name := by
  obtain ⟨parts, hfield, hparts⟩ := p.exists_field
  have hnone : parts.takeWhile isNameChar = [] := by
    cases hparts with
    | nil => rfl
    | part => exact List.takeWhile_cons_of_neg (by decide)
  rw [hfield, List.takeWhile_append_of_pos p.name_chars, hnone, List.append_nil]

variable {p}

theorem not_isBlank_of_head? (hc : c ∈ p.field.head?) : ¬ Text.isBlank c := by
  obtain ⟨parts, hfield, -⟩ := p.exists_field
  rw [hfield, List.head?_append_of_ne_nil _ p.name_nonempty] at hc
  exact not_isBlank_of_isNameChar (p.name_chars c (List.mem_of_mem_head? hc))

theorem not_isBlank_of_getLast? (hc : c ∈ p.field.getLast?) : ¬ Text.isBlank c := by
  obtain ⟨parts, hfield, hparts⟩ := p.exists_field
  rw [hfield] at hc
  cases hparts with
  | nil =>
    rw [List.append_nil] at hc
    exact not_isBlank_of_isNameChar (p.name_chars c (List.mem_of_getLast? hc))
  | part inner hlast =>
    rw [← List.cons_append, ← List.append_assoc, List.getLast?_concat] at hc
    exact Option.some.inj hc ▸ hlast

variable (p)

theorem field_ne_nil : p.field ≠ [] := by
  obtain ⟨parts, hfield, -⟩ := p.exists_field
  exact hfield ▸ List.append_ne_nil_of_left_ne_nil p.name_nonempty parts

theorem dropLineBreaks_text : Text.dropLineBreaks p.text.toList = p.content := by
  have hbreaks : ∀ c ∈ p.breaks, (c == '\n' || c == '\r') = true := fun c hmem => by
    rcases p.breaks_plain c hmem with rfl | rfl <;> rfl
  have hlast : p.content.getLast? = p.field.getLast? := by
    rw [content, ← List.append_assoc, List.getLast?_append_of_ne_nil _ p.field_ne_nil]
  rw [text, String.toList_ofList, Text.dropLineBreaks, Text.dropEndWhile_append hbreaks]
  exact Text.dropLineBreaks_of_getLast? fun c hc => not_isBlank_of_getLast? (hlast ▸ hc)

theorem dropBytes_content :
    Text.dropBytes nameColumn p.content = some (List.replicate p.spaces ' ' ++ p.field) :=
  Text.dropBytes_eq_some_iff.2 ⟨p.columns, rfl, p.columns_bytes⟩

theorem trim_spaces_field :
    Text.trim (List.replicate p.spaces ' ' ++ p.field) = p.field := by
  refine Text.trim_append (fun c hmem => ?_) (fun c => not_isBlank_of_head?)
    fun c => not_isBlank_of_getLast?
  rw [List.eq_of_mem_replicate hmem]
  decide

theorem notMem_opening : '(' ∉ p.opening := by
  intro hmem
  rcases List.mem_append.1 hmem with hname | hcycle
  · exact absurd (p.name_chars _ hname) (by decide)
  · exact elim_of (P := ('(' ∉ ·)) List.not_mem_nil
      (Tag.notMem_within (by decide) (by decide)) p.cycle hcycle

theorem notMem_ending : '(' ∉ p.ending :=
  elim_of (P := ('(' ∉ ·)) List.not_mem_nil (Tag.notMem_within (by decide) (by decide)) p.index

theorem firstMatch_field :
    Text.firstMatch pathHere? p.field = p.place.map Place.path := by
  rw [field, firstMatch_pathHere?_append p.notMem_opening]
  cases hplace : p.place with
  | none =>
    rw [Option.elim_none, List.nil_append, ← List.append_nil p.ending,
      firstMatch_pathHere?_append p.notMem_ending]
    rfl
  | some place =>
    have hspace : '(' ∉ [' '] := by decide
    have hsplit : place.text ++ p.ending = [' '] ++ '(' :: (place.content ++ p.ending) := rfl
    rw [Option.elim_some, hsplit, firstMatch_pathHere?_append hspace]
    exact Text.firstMatch_of_some (place.pathHere?_content p.ending)

theorem readLine_text : readLine p.text = .ok p.call := by
  obtain ⟨c, rest, hname⟩ := List.exists_cons_of_ne_nil p.name_nonempty
  have htake := p.takeWhile_field
  rw [hname] at htake
  simp only [readLine, p.dropLineBreaks_text, p.dropBytes_content, Option.getD_some,
    p.trim_spaces_field, p.field_ne_nil, if_false, htake, p.firstMatch_field, call, hname]
  cases p.place <;> rfl

end Printed

/-! ## Lines that are not read -/

/-- No name stands in its column. -/
def IsUnnamed (text : List Char) : Prop :=
  Text.byteLength text < nameColumn ∨ ¬ Text.IsBoundary nameColumn text ∨
    ∃ columns field, text = columns ++ field ∧ Text.byteLength columns = nameColumn ∧
      ∀ c ∈ field, Text.isBlank c

/-- What stands in the column of the name does not start with one. -/
def IsMisnamed (text : List Char) : Prop :=
  ∃ columns field c rest, text = columns ++ field ∧ Text.byteLength columns = nameColumn ∧
    Text.trim field = c :: rest ∧ ¬ isNameChar c

/-- What is reported of a line. -/
def failure (fault : LineFault) (text : List Char) : LineError where
  producer := .gprof
  fault := fault
  text := String.ofList text

/-- What stands in the column of the name. -/
def nameField (text : List Char) : List Char :=
  Text.trim ((Text.dropBytes nameColumn text).getD [])

theorem nameField_append {columns : List Char} (hcolumns : Text.byteLength columns = nameColumn)
    (field : List Char) : nameField (columns ++ field) = Text.trim field := by
  rw [nameField, ← hcolumns, Text.dropBytes_append, Option.getD_some]

theorem isUnnamed_iff : IsUnnamed text ↔ nameField text = [] := by
  by_cases hboundary : Text.IsBoundary nameColumn text
  · obtain ⟨columns, field, rfl, hcolumns⟩ := hboundary
    rw [nameField_append hcolumns, Text.trim_eq_nil_iff]
    constructor
    · rintro (hshort | hinside | ⟨columns', field', htext, hcolumns', hblank⟩)
      · rw [Text.byteLength_append, hcolumns] at hshort
        omega
      · exact absurd ⟨columns, field, rfl, hcolumns⟩ hinside
      · have hfield := Text.dropBytes_eq_some_iff.2 ⟨columns', htext, hcolumns'⟩
        rw [← hcolumns, Text.dropBytes_append] at hfield
        cases hfield
        exact hblank
    · exact fun hblank => .inr (.inr ⟨columns, field, rfl, hcolumns, hblank⟩)
  · have hnone := Text.dropBytes_eq_none_iff.2 hboundary
    refine iff_of_true (.inr (.inl hboundary)) ?_
    rw [nameField, hnone]
    rfl

theorem isMisnamed_iff :
    IsMisnamed text ↔ ∃ c rest, nameField text = c :: rest ∧ ¬ isNameChar c := by
  constructor
  · rintro ⟨columns, field, c, rest, rfl, hcolumns, hfield, hc⟩
    exact ⟨c, rest, (nameField_append hcolumns field).trans hfield, hc⟩
  · rintro ⟨c, rest, hfield, hc⟩
    cases hdrop : Text.dropBytes nameColumn text with
    | none =>
      rw [nameField, hdrop] at hfield
      cases hfield
    | some field =>
      obtain ⟨columns, rfl, hcolumns⟩ := Text.dropBytes_eq_some_iff.1 hdrop
      rw [nameField_append hcolumns] at hfield
      exact ⟨columns, field, c, rest, rfl, hcolumns, hfield, hc⟩

/-! ## What becomes of a line -/

variable {line : String}

theorem readLine_of_isUnnamed (h : IsUnnamed (Text.dropLineBreaks line.toList)) :
    readLine line = .error (failure (.missing "name") (Text.dropLineBreaks line.toList)) :=
  if_pos (isUnnamed_iff.1 h)

theorem readLine_of_isMisnamed (h : IsMisnamed (Text.dropLineBreaks line.toList)) :
    readLine line = .error (failure .malformed (Text.dropLineBreaks line.toList)) := by
  obtain ⟨c, rest, hfield, hc⟩ := isMisnamed_iff.1 h
  rw [nameField] at hfield
  simp only [readLine, hfield, List.takeWhile_cons_of_neg hc, reduceCtorEq, if_false]
  rfl

/-- A line is read if a name starts in its column. -/
theorem readLine_of_isNameChar {c : Char} {rest : List Char}
    (hfield : nameField (Text.dropLineBreaks line.toList) = c :: rest) (hc : isNameChar c) :
    readLine line = .ok {
      name := String.ofList (c :: rest.takeWhile isNameChar)
      signature := String.ofList ((Text.firstMatch pathHere? (c :: rest)).getD []) } := by
  rw [nameField] at hfield
  simp only [readLine, hfield, List.takeWhile_cons_of_pos hc, reduceCtorEq, if_false]

theorem not_isMisnamed_of_isUnnamed (h : IsUnnamed text) : ¬ IsMisnamed text := by
  rw [isMisnamed_iff, isUnnamed_iff.1 h]
  rintro ⟨c, rest, ⟨⟩, -⟩

/-- A printed line is read with its name and its path. Any line fails to be read for one of two
reasons: that no name stands in its column, or that something else stands there. -/
theorem readLine_printed_and_failures :
    (∀ p : Printed, readLine p.text = .ok p.call) ∧
      ∀ line : String,
        (readLine line = .error (failure (.missing "name") (Text.dropLineBreaks line.toList)) ↔
          IsUnnamed (Text.dropLineBreaks line.toList)) ∧
        (readLine line = .error (failure .malformed (Text.dropLineBreaks line.toList)) ↔
          IsMisnamed (Text.dropLineBreaks line.toList)) ∧
        ((∃ call, readLine line = .ok call) ↔
          ¬ IsUnnamed (Text.dropLineBreaks line.toList) ∧
            ¬ IsMisnamed (Text.dropLineBreaks line.toList)) := by
  refine ⟨Printed.readLine_text, fun line => ?_⟩
  by_cases hunnamed : IsUnnamed (Text.dropLineBreaks line.toList)
  · have hmisnamed := not_isMisnamed_of_isUnnamed hunnamed
    simp [readLine_of_isUnnamed hunnamed, hunnamed, hmisnamed, failure]
  · by_cases hmisnamed : IsMisnamed (Text.dropLineBreaks line.toList)
    · simp [readLine_of_isMisnamed hmisnamed, hunnamed, hmisnamed, failure]
    · obtain ⟨c, rest, hfield⟩ := List.exists_cons_of_ne_nil (mt isUnnamed_iff.2 hunnamed)
      have hc : isNameChar c := by
        by_contra hc
        exact hmisnamed (isMisnamed_iff.2 ⟨c, rest, hfield, hc⟩)
      simp [readLine_of_isNameChar hfield hc, hunnamed, hmisnamed]

/-- A path may hold colons and parentheses. -/
def Printed.nested : Printed where
  columns := "                0.00    0.00       1/2       ".toList
  spaces := 4
  name := "std.sort".toList
  cycle := some ⟨"2".toList, by decide⟩
  place := some {
    path := "(old):7(a".toList
    line := "38".toList
    address := "581033".toList
    path_nonempty := by decide
    path_dense := List.any_eq_false.1 (by decide)
    line_nonempty := by decide
    line_digits := List.all_eq_true.1 (by decide)
    address_nonempty := by decide
    address_digits := List.all_eq_true.1 (by decide) }
  index := some ⟨"9".toList, by decide⟩
  breaks := ['\r', '\n']
  columns_bytes := by decide
  name_nonempty := by decide
  name_chars := List.all_eq_true.1 (by decide)
  breaks_plain := by simp

example : readLine Printed.nested.text =
    .ok { name := "std.sort", signature := "(old):7(a" } := by
  decide

end AttackSurface.Gprof
