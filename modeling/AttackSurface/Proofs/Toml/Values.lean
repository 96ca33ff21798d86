import AttackSurface.Proofs.Toml.Strings
import AttackSurface.Proofs.Toml.Words
import AttackSurface.Toml.Document

/-! Values of a document. A number up to the end of its line, a string, and an array of strings in
either of its layouts are read back as they were written. -/
namespace AttackSurface.Toml

variable {text rest : List Char}

/-- What a field is read as. -/
def Field.value : Field → Value
  | .natural n => .integer n
  | .float x => .float x
  | .string text => .string text
  | .strings texts => .array (texts.map .string)

/-- A field that is read back: integers have their limit, and NaN is no number. -/
def Field.Readable : Field → Prop
  | .natural n => n ≤ Int64.maxValue.toInt
  | .float x => x.isNaN = false
  | .string _ => True
  | .strings _ => True

/-! ## One line -/

theorem scanValue_of_head? (hbracket : text.head? ≠ some '[') (hbrace : text.head? ≠ some '{')
    (depth : ℕ) : scanValue depth text = scanSimple text := by
  cases depth with
  | zero => rfl
  | succ depth =>
    simp only [scanValue]
    split
    · exact absurd rfl hbracket
    · exact absurd rfl hbrace
    · rfl

theorem IsWordOf.scanValue_eq {word : List Char} {value : Value} (h : IsWordOf word value)
    (depth : ℕ) (rest : List Char) :
    scanValue depth (word ++ '\n' :: rest) = some (value, '\n' :: rest) := by
  have hhead {c : Char} (hc : isWordPart c = false) :
      (word ++ '\n' :: rest).head? ≠ some c := by
    intro heq
    rw [List.head?_append_of_ne_nil _ h.ne_nil] at heq
    rw [h.part c (List.mem_of_head? heq)] at hc
    cases hc
  rw [scanValue_of_head? (hhead (by decide)) (hhead (by decide)), scanSimple,
    if_neg (not_or.2 ⟨hhead (by decide), hhead (by decide)⟩), h.takeWord_eq]
  simp [h.read]

/-- A string starts with a quote. -/
theorem exists_writeString (s : String) :
    ∃ quote tail, writeString s = quote :: tail ∧ (quote = '"' ∨ quote = '\'') := by
  unfold writeString
  cases StringForm.of s.toList with
  | basic => exact ⟨'"', _, rfl, .inl rfl⟩
  | literal => exact ⟨'\'', _, rfl, .inr rfl⟩
  | multiBasic => exact ⟨'"', _, rfl, .inl rfl⟩
  | multiLiteral => exact ⟨'\'', _, rfl, .inr rfl⟩

theorem head?_writeString {s : String} {c : Char} (hdouble : c ≠ '"') (hsingle : c ≠ '\'')
    (rest : List Char) : (writeString s ++ rest).head? ≠ some c := by
  obtain ⟨quote, tail, hshown, rfl | rfl⟩ := exists_writeString s
  · simpa [hshown] using hdouble.symm
  · simpa [hshown] using hsingle.symm

theorem scanValue_writeString (s : String) (hdouble : rest.head? ≠ some '"')
    (hsingle : rest.head? ≠ some '\'') (depth : ℕ) :
    scanValue depth (writeString s ++ rest) = some (.string s, rest) := by
  have hquote : (writeString s ++ rest).head? = some '"' ∨
      (writeString s ++ rest).head? = some '\'' := by
    obtain ⟨quote, tail, hshown, rfl | rfl⟩ := exists_writeString s
    · exact .inl (by rw [hshown]; rfl)
    · exact .inr (by rw [hshown]; rfl)
  rw [scanValue_of_head? (head?_writeString (by decide) (by decide) rest)
    (head?_writeString (by decide) (by decide) rest), scanSimple, if_pos hquote,
    scanString_writeString s hdouble hsingle]
  rfl

/-! ## Arrays -/

/-- A character that is no white space and starts no comment ends the layout. -/
theorem skipLayout_cons {c : Char} (hspace : isSpace c = false) (hbreak : c ≠ '\n')
    (hreturn : c ≠ '\r') (hcomment : c ≠ '#') (rest : List Char) :
    skipLayout false (c :: rest) = c :: rest := by
  simp [skipLayout, hspace, hbreak, hreturn, hcomment]

theorem skipLayout_writeString (s : String) (rest : List Char) :
    skipLayout false (writeString s ++ rest) = writeString s ++ rest := by
  obtain ⟨quote, tail, hshown, rfl | rfl⟩ := exists_writeString s
  · rw [hshown]
    exact skipLayout_cons (by decide) (by decide) (by decide) (by decide) _
  · rw [hshown]
    exact skipLayout_cons (by decide) (by decide) (by decide) (by decide) _

theorem scanValue_bracket (depth : ℕ) (rest : List Char) :
    scanValue (depth + 1) ('[' :: rest) =
      (scanItems (scanValue depth) (rest.length + 1) rest).map fun (values, rest) =>
        (.array values, rest) := rfl

theorem scanItems_comma {item : Scan Value} {limit : ℕ} {value : Value}
    {start after more : List Char} (hskip : skipLayout false text = start)
    (hstart : start.head? ≠ some ']') (hitem : item start = some (value, after))
    (hafter : skipLayout false after = ',' :: more) :
    scanItems item (limit + 1) text =
      (scanItems item limit more).map fun (values, rest) => (value :: values, rest) := by
  simp only [scanItems, hskip]
  split
  · exact absurd rfl hstart
  · simp [hitem, hafter, Option.map_eq_bind]

theorem scanItems_close {item : Scan Value} {limit : ℕ} {value : Value}
    {start after : List Char} (hskip : skipLayout false text = start)
    (hstart : start.head? ≠ some ']') (hitem : item start = some (value, after))
    (hafter : skipLayout false after = ']' :: rest) :
    scanItems item (limit + 1) text = some ([value], rest) := by
  simp only [scanItems, hskip]
  split
  · exact absurd rfl hstart
  · simp [hitem, hafter]

/-- The lines of an array of strings, each string on one of its own. -/
def itemLines (texts : List String) : List Char :=
  texts.flatMap fun text => "    ".toList ++ writeString text ++ [',', '\n']

theorem length_le_length_itemLines (texts : List String) :
    texts.length ≤ (itemLines texts).length := by
  induction texts with
  | nil => exact Nat.le_refl 0
  | cons text texts ih =>
    simp only [itemLines, List.flatMap_cons, List.length_append, List.length_cons] at ih ⊢
    omega

theorem scanItems_itemLines (texts : List String) (depth : ℕ) {limit : ℕ}
    (hlimit : texts.length < limit) (rest : List Char) :
    scanItems (scanValue depth) limit ('\n' :: (itemLines texts ++ ']' :: rest)) =
      some (texts.map .string, rest) := by
  induction texts generalizing limit with
  | nil =>
    obtain _ | limit := limit
    · omega
    · rfl
  | cons text texts ih =>
    obtain _ | limit := limit
    · omega
    · have hlines : '\n' :: (itemLines (text :: texts) ++ ']' :: rest) =
          '\n' :: ' ' :: ' ' :: ' ' :: ' ' ::
            (writeString text ++ ',' :: '\n' :: (itemLines texts ++ ']' :: rest)) := by
        simp [itemLines]
      have hskip : skipLayout false ('\n' :: ' ' :: ' ' :: ' ' :: ' ' ::
            (writeString text ++ ',' :: '\n' :: (itemLines texts ++ ']' :: rest))) =
          writeString text ++ ',' :: '\n' :: (itemLines texts ++ ']' :: rest) := by
        simp [skipLayout, isSpace, skipLayout_writeString]
      rw [hlines, scanItems_comma hskip (head?_writeString (by decide) (by decide) _)
        (scanValue_writeString text (by simp) (by simp) depth)
        (skipLayout_cons (by decide) (by decide) (by decide) (by decide) _),
        ih (by simpa using hlimit)]
      rfl

theorem scanValue_writeStrings (texts : List String) (depth : ℕ) (rest : List Char) :
    scanValue (depth + 1) (writeStrings texts ++ rest) =
      some (.array (texts.map .string), rest) := by
  match texts with
  | [] => rfl
  | [text] =>
    have hwritten : writeStrings [text] ++ rest = '[' :: (writeString text ++ ']' :: rest) := by
      simp [writeStrings]
    have hitems : scanItems (scanValue depth) ((writeString text ++ ']' :: rest).length + 1)
        (writeString text ++ ']' :: rest) = some ([.string text], rest) :=
      scanItems_close (skipLayout_writeString text _) (head?_writeString (by decide) (by decide) _)
        (scanValue_writeString text (by simp) (by simp) depth)
        (skipLayout_cons (by decide) (by decide) (by decide) (by decide) _)
    rw [hwritten, scanValue_bracket, hitems]
    rfl
  | text :: next :: texts =>
    have hwritten : writeStrings (text :: next :: texts) ++ rest =
        '[' :: '\n' :: (itemLines (text :: next :: texts) ++ ']' :: rest) := by
      simp [writeStrings, itemLines]
    have hlimit : (text :: next :: texts).length <
        ('\n' :: (itemLines (text :: next :: texts) ++ ']' :: rest)).length + 1 := by
      have hle := length_le_length_itemLines (text :: next :: texts)
      simp only [List.length_cons, List.length_append] at hle ⊢
      omega
    rw [hwritten, scanValue_bracket, scanItems_itemLines _ depth hlimit]
    rfl

/-- A field is read back up to the end of its line. -/
theorem Field.scanValue_write {field : Field} (h : field.Readable) (depth : ℕ) (rest : List Char) :
    scanValue (depth + 1) (field.write ++ '\n' :: rest) = some (field.value, '\n' :: rest) := by
  cases field with
  | natural n => exact (isWordOf_writeNat h).scanValue_eq (depth + 1) rest
  | float x => exact (isWordOf_writeFloat h).scanValue_eq (depth + 1) rest
  | string text => exact scanValue_writeString text (by simp) (by simp) (depth + 1)
  | strings texts => exact scanValue_writeStrings texts depth ('\n' :: rest)

end AttackSurface.Toml
