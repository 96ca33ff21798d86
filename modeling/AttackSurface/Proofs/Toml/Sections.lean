import AttackSurface.Proofs.Toml.Values

/-! Documents of sections. The text of sections with plain and distinct names, each with plain and
distinct keys, is read as the table of their tables, in the same order. -/
namespace AttackSurface.Toml

variable {key : String} {value : Value} {text rest : List Char}

/-! ## Keys -/

/-- A key that is written without quotes. -/
def IsBare (key : String) : Prop := key.toList ≠ [] ∧ ∀ c ∈ key.toList, isBareKeyChar c

instance (key : String) : Decidable (IsBare key) :=
  decidable_of_iff (key.toList ≠ [] ∧ key.toList.all isBareKeyChar) (by simp [IsBare])

theorem skipSpaces_cons {c : Char} (hc : isSpace c = false) (rest : List Char) :
    skipSpaces (c :: rest) = c :: rest := by
  simp [skipSpaces, hc]

namespace IsBare

variable (h : IsBare key)
include h

theorem exists_cons : ∃ c tail, key.toList = c :: tail ∧ isBareKeyChar c := by
  obtain ⟨c, tail, hkey⟩ := List.exists_cons_of_ne_nil h.1
  exact ⟨c, tail, hkey, h.2 c (by rw [hkey]; exact List.mem_cons_self)⟩

theorem head?_ne {c : Char} (hc : isBareKeyChar c = false) (rest : List Char) :
    (key.toList ++ rest).head? ≠ some c := by
  obtain ⟨first, tail, hkey, hfirst⟩ := h.exists_cons
  rw [hkey]
  rintro ⟨⟩
  rw [hfirst] at hc
  cases hc

theorem skipSpaces_eq (rest : List Char) :
    skipSpaces (key.toList ++ rest) = key.toList ++ rest := by
  obtain ⟨c, tail, hkey, hc⟩ := h.exists_cons
  have hspace : isSpace c = false := by
    rw [isSpace, Bool.or_eq_false_iff, beq_eq_false_iff_ne, beq_eq_false_iff_ne]
    constructor <;> rintro rfl <;> cases hc
  rw [hkey]
  exact skipSpaces_cons hspace _

theorem scanKeyPart_eq (hrest : rest.head?.any isBareKeyChar = false) :
    scanKeyPart (key.toList ++ rest) = some (key, rest) := by
  have htake : (key.toList ++ rest).takeWhile isBareKeyChar = key.toList := by
    rw [List.takeWhile_append_of_pos h.2]
    cases rest with
    | nil => simp
    | cons c rest => simp_all
  unfold scanKeyPart
  split
  case h_1 heq => exact absurd (by rw [heq]; rfl) (h.head?_ne (c := '"') (by decide) rest)
  case h_2 heq => exact absurd (by rw [heq]; rfl) (h.head?_ne (c := '\'') (by decide) rest)
  case h_3 => simp [htake, h.1]

theorem scanKeyParts_eq (limit : ℕ) (hrest : rest.head?.any isBareKeyChar = false)
    (hpoint : (skipSpaces rest).head? ≠ some '.') :
    scanKeyParts (limit + 1) (key.toList ++ rest) = some ([key], skipSpaces rest) := by
  simp only [scanKeyParts, h.skipSpaces_eq, h.scanKeyPart_eq hrest, Option.bind_eq_bind,
    Option.bind_some]
  split
  case h_1 heq => exact absurd (by rw [heq]; rfl) hpoint
  case h_2 => rfl

theorem scanKey_eq (hrest : rest.head?.any isBareKeyChar = false)
    (hpoint : (skipSpaces rest).head? ≠ some '.') :
    scanKey (key.toList ++ rest) = some (([], key), skipSpaces rest) := by
  have hparts : scanKeyParts depthLimit (key.toList ++ rest) = some ([key], skipSpaces rest) :=
    h.scanKeyParts_eq 78 hrest hpoint
  rw [scanKey, hparts]
  rfl

end IsBare

/-! ## Lines -/

theorem isSpace_of_isWordPart {c : Char} (h : isWordPart c) : isSpace c = false := by
  rw [isSpace, Bool.or_eq_false_iff, beq_eq_false_iff_ne, beq_eq_false_iff_ne]
  constructor <;> rintro rfl <;> cases h

theorem IsWordOf.skipSpaces_eq {word : List Char} (h : IsWordOf word value) (rest : List Char) :
    skipSpaces (word ++ rest) = word ++ rest := by
  obtain ⟨c, tail, rfl⟩ := List.exists_cons_of_ne_nil h.ne_nil
  exact skipSpaces_cons (isSpace_of_isWordPart (h.part c List.mem_cons_self)) _

/-- No field starts with a space. -/
theorem Field.skipSpaces_write {field : Field} (h : field.Readable) (rest : List Char) :
    skipSpaces (field.write ++ rest) = field.write ++ rest := by
  cases field with
  | natural n => exact (isWordOf_writeNat h).skipSpaces_eq rest
  | float x => exact (isWordOf_writeFloat h).skipSpaces_eq rest
  | string text =>
    obtain ⟨quote, tail, hshown, rfl | rfl⟩ := exists_writeString text
    · rw [Field.write, hshown]
      exact skipSpaces_cons (by decide) _
    · rw [Field.write, hshown]
      exact skipSpaces_cons (by decide) _
  | strings texts =>
    match texts with
    | [] => rfl
    | [_] => rfl
    | _ :: _ :: _ => rfl

variable {doc next result : Document}

/-- A line that starts with a bare key is a pair. -/
theorem IsBare.addStatement_eq (h : IsBare key) (rest : List Char) :
    doc.addStatement (key.toList ++ rest) =
      (scanPair (scanValue depthLimit) (key.toList ++ rest)).bind
        fun (((path, key), value), rest) =>
          (doc.addPair path key value).map fun next => (next, rest) := by
  have hother {c : Char} {tail : List Char} (hc : isBareKeyChar c = false) :
      key.toList ++ rest ≠ c :: tail := fun heq => h.head?_ne hc rest (by rw [heq]; rfl)
  have hne : key.toList ++ rest ≠ [] := fun heq => h.1 (List.append_eq_nil_iff.1 heq).1
  generalize key.toList ++ rest = line at hother hne
  unfold Document.addStatement
  split
  · exact absurd rfl hne
  · exact absurd rfl (hother (by decide))
  · exact absurd rfl (hother (by decide))
  · exact absurd rfl (hother (by decide))
  · exact absurd rfl (hother (by decide))
  · exact absurd rfl (hother (by decide))
  · simp [Option.map_eq_bind]

theorem addStatement_field {field : Field} (hkey : IsBare key) (h : field.Readable)
    (hadd : doc.addPair [] key field.value = some next) (rest : List Char) :
    doc.addStatement (key.toList ++ (" = ".toList ++ field.write ++ '\n' :: rest)) =
      some (next, '\n' :: rest) := by
  have hscan : scanKey (key.toList ++ (" = ".toList ++ field.write ++ '\n' :: rest)) =
      some (([], key), '=' :: ' ' :: (field.write ++ '\n' :: rest)) :=
    hkey.scanKey_eq rfl (by simp [skipSpaces, isSpace])
  have hspace : skipSpaces (' ' :: (field.write ++ '\n' :: rest)) = field.write ++ '\n' :: rest :=
    Field.skipSpaces_write h _
  have hpair : scanPair (scanValue depthLimit)
      (key.toList ++ (" = ".toList ++ field.write ++ '\n' :: rest)) =
        some ((([], key), field.value), '\n' :: rest) := by
    simp only [scanPair, hscan, Option.bind_eq_bind, Option.bind_some, hspace]
    rw [depthLimit, Field.scanValue_write h]
    rfl
  rw [hkey.addStatement_eq, hpair]
  simp [hadd]

theorem addStatement_header {name : String} (hname : IsBare name)
    (hadd : doc.addHeader false [] name = some next) (rest : List Char) :
    doc.addStatement ('[' :: (name.toList ++ ']' :: '\n' :: rest)) =
      some (next, '\n' :: rest) := by
  have hkey : scanKey (name.toList ++ ']' :: '\n' :: rest) =
      some (([], name), ']' :: '\n' :: rest) :=
    hname.scanKey_eq rfl (by simp [skipSpaces, isSpace])
  have hopen {tail : List Char} : name.toList ++ ']' :: '\n' :: rest ≠ '[' :: tail := fun heq =>
    hname.head?_ne (c := '[') (by decide) _ (by rw [heq]; rfl)
  unfold Document.addStatement
  split
  case h_1 heq => cases heq
  case h_2 heq => simp at heq
  case h_3 heq => simp at heq
  case h_4 heq => simp at heq
  case h_5 heq => exact absurd (List.cons.inj heq).2 hopen
  case h_6 heq =>
    rw [← (List.cons.inj heq).2]
    simp [hkey, hadd]
  case h_7 _ _ hbracket => exact absurd rfl (hbracket _)

/-- The lines of a text, however many of them are allowed, turn a document into another. -/
def Reads (doc : Document) (text : List Char) (result : Document) : Prop :=
  ∀ ⦃limit : ℕ⦄, text.length < limit → doc.addLines limit text = some result

theorem reads_nil (doc : Document) : Reads doc [] doc := by
  intro limit hlimit
  obtain _ | limit := limit
  · omega
  · rfl

/-- A line is read by the statement on it, and those after it by the rest. -/
theorem Reads.line (hstatement : doc.addStatement (skipSpaces text) = some (next, '\n' :: rest))
    (hlength : rest.length < text.length) (hrest : Reads next rest result) :
    Reads doc text result := by
  intro limit hlimit
  obtain _ | limit := limit
  · omega
  · have hbreak : skipToLineEnd ('\n' :: rest) = '\n' :: rest := rfl
    simp only [Document.addLines, hstatement, Option.bind_eq_bind, Option.bind_some, hbreak]
    exact hrest (by omega)

/-! ## Tables -/

section Tables

variable {entries inner : Entries} {old : Value} {name : String}

theorem lookup_of_notMem {α : Type} {entries : List (String × α)}
    (h : key ∉ entries.map Prod.fst) : entries.lookup key = none := by
  refine List.lookup_eq_none_iff.2 fun entry hentry => ?_
  rw [bne_iff_ne]
  rintro rfl
  exact h (List.mem_map_of_mem hentry)

theorem find?_of_notMem (h : key ∉ entries.map Prod.fst) : entries.find? key = none :=
  lookup_of_notMem h

theorem find?_concat (h : key ∉ entries.map Prod.fst) :
    Entries.find? (entries ++ [(key, value)]) key = some value := by
  simp [Entries.find?, List.lookup_append, lookup_of_notMem h]

theorem put_new (h : key ∉ entries.map Prod.fst) :
    entries.put key value = entries ++ [(key, value)] := by
  induction entries with
  | nil => rfl
  | cons entry entries ih =>
    obtain ⟨hne, hrest⟩ := List.ne_and_not_mem_of_not_mem_cons h
    rw [Entries.put, if_neg hne.symm, ih hrest]
    rfl

theorem put_concat (h : key ∉ entries.map Prod.fst) :
    Entries.put (entries ++ [(key, old)]) key value = entries ++ [(key, value)] := by
  induction entries with
  | nil => exact if_pos rfl
  | cons entry entries ih =>
    obtain ⟨hne, hrest⟩ := List.ne_and_not_mem_of_not_mem_cons h
    rw [List.cons_append, Entries.put, if_neg hne.symm, ih hrest]
    rfl

/-- A new pair goes to the end of the table that was opened last. -/
theorem addPair_concat (hname : name ∉ entries.map Prod.fst) (hkey : key ∉ inner.map Prod.fst) :
    Document.addPair ⟨entries ++ [(name, .table .headed inner)], [name]⟩ [] key value =
      some ⟨entries ++ [(name, .table .headed (inner ++ [(key, value)]))], [name]⟩ := by
  simp [Document.addPair, Entries.change, Entries.insert, find?_concat hname, find?_of_notMem hkey,
    put_new hkey, put_concat hname]

/-- The header of a new table opens it at the end. -/
theorem addHeader_new (hname : name ∉ entries.map Prod.fst) (current : List String) :
    Document.addHeader ⟨entries, current⟩ false [] name =
      some ⟨entries ++ [(name, .table .headed [])], [name]⟩ := by
  simp [Document.addHeader, Entries.change, Entries.openTable, find?_of_notMem hname, put_new hname]

end Tables

/-! ## Sections -/

/-- What a section is read as. -/
def Section.entry (s : Section) : String × Value :=
  (s.name, .table .headed (s.fields.map fun (key, field) => (key, field.value)))

/-- A section that is read back. -/
structure Section.Readable (s : Section) : Prop where
  bare_name : IsBare s.name
  field : ∀ field ∈ s.fields, IsBare field.1 ∧ field.2.Readable
  nodup_keys : (s.fields.map Prod.fst).Nodup

/-- The lines of fields. -/
def fieldLines (fields : List (String × Field)) : List Char :=
  fields.flatMap fun (key, field) => key.toList ++ " = ".toList ++ field.write ++ ['\n']

variable {entries inner : Entries} {name : String}

theorem reads_fieldLines {fields : List (String × Field)} (hname : name ∉ entries.map Prod.fst)
    (hfields : ∀ field ∈ fields, IsBare field.1 ∧ field.2.Readable)
    (hnodup : (inner.map Prod.fst ++ fields.map Prod.fst).Nodup)
    (hrest : Reads ⟨entries ++ [(name, .table .headed
      (inner ++ fields.map fun (key, field) => (key, field.value)))], [name]⟩ rest result) :
    Reads ⟨entries ++ [(name, .table .headed inner)], [name]⟩ (fieldLines fields ++ rest)
      result := by
  induction fields generalizing inner with
  | nil => simpa [fieldLines] using hrest
  | cons field fields ih =>
    obtain ⟨key, field⟩ := field
    obtain ⟨⟨hbare, hreadable⟩, hfields⟩ := List.forall_mem_cons.1 hfields
    have hkey : key ∉ inner.map Prod.fst := fun hmem =>
      (List.nodup_append.1 hnodup).2.2 key hmem key List.mem_cons_self rfl
    have hlines : fieldLines ((key, field) :: fields) ++ rest =
        key.toList ++ (" = ".toList ++ field.write ++ '\n' :: (fieldLines fields ++ rest)) := by
      simp [fieldLines]
    have hstatement : Document.addStatement ⟨entries ++ [(name, .table .headed inner)], [name]⟩
        (skipSpaces (fieldLines ((key, field) :: fields) ++ rest)) =
          some (⟨entries ++ [(name, .table .headed (inner ++ [(key, field.value)]))], [name]⟩,
            '\n' :: (fieldLines fields ++ rest)) := by
      rw [hlines, hbare.skipSpaces_eq]
      exact addStatement_field hbare hreadable (addPair_concat hname hkey) _
    refine Reads.line hstatement ?_ (ih hfields ?_ ?_)
    · simp only [hlines, List.length_append, List.length_cons]
      omega
    · simpa using hnodup
    · simpa using hrest

theorem reads_section {s : Section} (h : s.Readable) (hname : s.name ∉ entries.map Prod.fst)
    {current : List String} (hrest : Reads ⟨entries ++ [s.entry], [s.name]⟩ rest result) :
    Reads ⟨entries, current⟩ (s.write ++ rest) result := by
  have hlines : s.write ++ rest =
      '[' :: (s.name.toList ++ ']' :: '\n' :: (fieldLines s.fields ++ rest)) := by
    simp [Section.write, fieldLines]
  have hstatement : Document.addStatement ⟨entries, current⟩ (skipSpaces (s.write ++ rest)) =
      some (⟨entries ++ [(s.name, .table .headed [])], [s.name]⟩,
        '\n' :: (fieldLines s.fields ++ rest)) := by
    rw [hlines, skipSpaces_cons (by decide)]
    exact addStatement_header h.bare_name (addHeader_new hname current) _
  refine Reads.line hstatement ?_
    (reads_fieldLines hname h.field (by simpa using h.nodup_keys) hrest)
  simp only [hlines, List.length_append, List.length_cons]
  omega

theorem reads_writeSections {sections : List Section} (h : ∀ s ∈ sections, s.Readable)
    (hnodup : (entries.map Prod.fst ++ sections.map Section.name).Nodup) (current : List String) :
    ∃ last, Reads ⟨entries, current⟩ (writeSections sections)
      ⟨entries ++ sections.map Section.entry, last⟩ := by
  induction sections generalizing entries current with
  | nil => exact ⟨current, by simpa [writeSections] using reads_nil _⟩
  | cons s sections ih =>
    obtain ⟨hs, h⟩ := List.forall_mem_cons.1 h
    have hname : s.name ∉ entries.map Prod.fst := fun hmem =>
      (List.nodup_append.1 hnodup).2.2 s.name hmem s.name List.mem_cons_self rfl
    have hentries : entries ++ [s.entry] ++ sections.map Section.entry =
        entries ++ (s :: sections).map Section.entry := by simp
    have hnodup : ((entries ++ [s.entry]).map Prod.fst ++ sections.map Section.name).Nodup := by
      simpa [Section.entry] using hnodup
    obtain ⟨last, hlast⟩ := ih h hnodup [s.name]
    rw [hentries] at hlast
    refine ⟨last, ?_⟩
    cases sections with
    | nil =>
      have hwritten : writeSections [s] = s.write ++ [] := by simp [writeSections]
      rw [hwritten]
      exact reads_section hs hname (by simpa [writeSections] using hlast)
    | cons next sections =>
      have hwritten : writeSections (s :: next :: sections) =
          s.write ++ '\n' :: writeSections (next :: sections) := by simp [writeSections]
      rw [hwritten]
      exact reads_section hs hname (Reads.line rfl (by simp) hlast)

/-- A document of sections is read as the table of their tables. -/
theorem read?_writeSections {sections : List Section} (h : ∀ s ∈ sections, s.Readable)
    (hnodup : (sections.map Section.name).Nodup) :
    read? (String.ofList (writeSections sections)) = some (sections.map Section.entry) := by
  have hreads : ∃ last, Reads {} (writeSections sections)
      ⟨[] ++ sections.map Section.entry, last⟩ := reads_writeSections h (by simpa using hnodup) []
  obtain ⟨last, hlast⟩ := hreads
  have hmark {tail : List Char} : writeSections sections ≠ '\ufeff' :: tail := by
    obtain _ | ⟨s, _ | ⟨next, sections⟩⟩ := sections <;> simp [writeSections, Section.write]
  rw [read?, String.toList_ofList]
  split
  · exact absurd ‹_› hmark
  · rw [hlast (Nat.lt_succ_self _)]
    rfl

end AttackSurface.Toml
