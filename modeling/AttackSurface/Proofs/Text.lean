import AttackSurface.Text.Blank
import AttackSurface.Text.Lines
import AttackSurface.Text.Search
import AttackSurface.Text.WordChar
import Mathlib.Data.List.Infix
import Mathlib.Data.List.TakeWhile

/-! What is left of a text that was trimmed, where a search in it ends, and which lines it has. -/
namespace AttackSurface.Text

variable {text : List Char} {p : Char → Bool}

theorem dropEndWhile_subset (p : Char → Bool) (text : List Char) : dropEndWhile p text ⊆ text := by
  fun_induction dropEndWhile p text with
  | case1 => exact List.Subset.refl _
  | case2 c rest hdropped hp ih => exact List.nil_subset _
  | case3 c rest hdropped hp ih => exact List.cons_subset_cons c (List.nil_subset _)
  | case4 c rest hkept ih => exact List.cons_subset_cons c ih

/-- A text of which nothing is left held nothing else. -/
theorem forall_of_dropEndWhile (h : dropEndWhile p text = []) : ∀ c ∈ text, p c := by
  fun_induction dropEndWhile p text with
  | case1 => exact fun c hc => absurd hc List.not_mem_nil
  | case2 c rest hdropped hp ih => exact List.forall_mem_cons.2 ⟨hp, ih hdropped⟩
  | case3 => cases h
  | case4 => cases h

theorem dropEndWhile_eq_nil_iff : dropEndWhile p text = [] ↔ ∀ c ∈ text, p c := by
  refine ⟨forall_of_dropEndWhile, fun h => ?_⟩
  induction text with
  | nil => rfl
  | cons c rest ih =>
    obtain ⟨hc, hrest⟩ := List.forall_mem_cons.1 h
    rw [dropEndWhile, ih hrest]
    exact if_pos hc

/-- What is dropped at the end is a run. -/
theorem exists_dropped (p : Char → Bool) (text : List Char) :
    ∃ run, text = dropEndWhile p text ++ run ∧ ∀ c ∈ run, p c := by
  induction text with
  | nil => exact ⟨[], rfl, by simp⟩
  | cons c rest ih =>
    obtain ⟨run, hrest, hrun⟩ := ih
    rw [dropEndWhile]
    split
    · rename_i hnil
      rw [hnil, List.nil_append] at hrest
      split
      · rename_i hc
        exact ⟨c :: run, by rw [hrest, List.nil_append], List.forall_mem_cons.2 ⟨hc, hrun⟩⟩
      · exact ⟨run, by rw [hrest]; rfl, hrun⟩
    · exact ⟨run, congrArg (c :: ·) hrest, hrun⟩

theorem dropEndWhile_concat {c : Char} (hc : ¬ p c) (text : List Char) :
    dropEndWhile p (text ++ [c]) = text ++ [c] := by
  induction text with
  | nil => simp [dropEndWhile, hc]
  | cons first text ih =>
    rw [List.cons_append, dropEndWhile, ih]
    split
    · rename_i hnil
      simp at hnil
    · rfl

/-- A run at the end does not matter. -/
theorem dropEndWhile_append {run : List Char} (hrun : ∀ c ∈ run, p c) (text : List Char) :
    dropEndWhile p (text ++ run) = dropEndWhile p text := by
  induction text with
  | nil => exact dropEndWhile_eq_nil_iff.2 hrun
  | cons c rest ih => rw [List.cons_append, dropEndWhile, ih, dropEndWhile]

theorem dropEndWhile_of_getLast? (h : ∀ c ∈ text.getLast?, ¬ p c) : dropEndWhile p text = text := by
  rcases List.eq_nil_or_concat text with rfl | ⟨start, c, rfl⟩
  · rfl
  · rw [List.concat_eq_append] at h ⊢
    exact dropEndWhile_concat (h c List.getLast?_concat) start

theorem trim_eq_nil_iff : trim text = [] ↔ ∀ c ∈ text, isBlank c := by
  rw [trim, trimEnd, trimStart, dropEndWhile_eq_nil_iff]
  refine ⟨fun h c hc => ?_, fun h c hc => h c ((List.dropWhile_sublist _).subset hc)⟩
  rw [← List.takeWhile_append_dropWhile (p := isBlank) (l := text)] at hc
  rcases List.mem_append.1 hc with hstart | hrest
  · exact List.mem_takeWhile_imp hstart
  · exact h c hrest

/-- Blanks before a text without blanks at its ends are trimmed, and nothing else. -/
theorem trim_append {blanks : List Char} (hblanks : ∀ c ∈ blanks, isBlank c)
    (hstart : ∀ c ∈ text.head?, ¬ isBlank c) (hend : ∀ c ∈ text.getLast?, ¬ isBlank c) :
    trim (blanks ++ text) = text := by
  have hkept : trimStart (blanks ++ text) = text := by
    rw [trimStart, List.dropWhile_append_of_pos hblanks]
    cases text with
    | nil => rfl
    | cons c rest => exact List.dropWhile_cons_of_neg (hstart c rfl)
  rw [trim, hkept]
  exact dropEndWhile_of_getLast? hend

theorem trim_of_dense (hstart : ∀ c ∈ text.head?, ¬ isBlank c)
    (hend : ∀ c ∈ text.getLast?, ¬ isBlank c) : trim text = text :=
  trim_append (List.forall_mem_nil _) hstart hend

theorem trim_of_forall_not_isBlank (h : ∀ c ∈ text, ¬ isBlank c) : trim text = text :=
  trim_of_dense (fun c hc => h c (List.mem_of_mem_head? hc)) fun c hc =>
    h c (List.mem_of_getLast? hc)

theorem isBlank_of_isBreak {c : Char} (h : c == '\n' || c == '\r') : isBlank c := by
  rcases Bool.or_eq_true_iff.1 h with hc | hc <;> rw [beq_iff_eq.1 hc] <;> decide

theorem dropLineBreaks_of_getLast? (h : ∀ c ∈ text.getLast?, ¬ isBlank c) :
    dropLineBreaks text = text :=
  dropEndWhile_of_getLast? fun c hc => mt isBlank_of_isBreak (h c hc)

theorem exists_of_firstMatch {β : Type} {find : List Char → Option β} {found : β}
    (h : firstMatch find text = some found) : ∃ rest, find rest = some found := by
  induction text with
  | nil => exact ⟨[], h⟩
  | cons c rest ih =>
    rcases Option.or_eq_some_iff.1 h with hhere | ⟨-, hlater⟩
    · exact ⟨c :: rest, hhere⟩
    · exact ih hlater

theorem after?_eq_some {start rest : List Char} (h : after? start text = some rest) :
    text = start ++ rest := by
  fun_induction after? start text with
  | case1 => exact Option.some.inj h
  | case2 => cases h
  | case3 start c text ih => exact congrArg (c :: ·) (ih h)
  | case4 => cases h

theorem isSome_after? {start : List Char} : (after? start text).isSome ↔ start <+: text := by
  fun_induction after? start text with
  | case1 => simp
  | case2 => simp
  | case3 start c text ih => rw [ih, List.prefix_cons_inj]
  | case4 start a c text hne => simp [List.cons_prefix_cons, hne]

theorem occurs_iff {part : List Char} : occurs part text ↔ part <:+: text := by
  induction text with
  | nil => simp [occurs]
  | cons c rest ih => rw [occurs, Bool.or_eq_true, isSome_after?, ih, List.infix_cons_iff]

theorem afterRun?_append {run rest : List Char} {c : Char} (hnonempty : run ≠ [])
    (hrun : ∀ c ∈ run, p c) (hc : ¬ p c) :
    afterRun? p (run ++ c :: rest) = some (c :: rest) := by
  obtain ⟨first, run, rfl⟩ := List.exists_cons_of_ne_nil hnonempty
  have hfirst := hrun first List.mem_cons_self
  rw [afterRun?, List.dropWhile_append_of_pos hrun, List.dropWhile_cons_of_neg hc,
    List.cons_append, List.head?_cons, Option.any_some, if_pos hfirst]

/-! ## Bytes -/

theorem byteLength_append (before after : List Char) :
    byteLength (before ++ after) = byteLength before + byteLength after := by
  induction before with
  | nil => exact (Nat.zero_add _).symm
  | cons c before ih =>
    have hcons (text : List Char) : byteLength (c :: text) = c.utf8Size + byteLength text := rfl
    rw [List.cons_append, hcons, hcons, ih, Nat.add_assoc]

/-- Does a character of the text start, or the text end, at byte `n`? -/
def IsBoundary (n : Nat) (text : List Char) : Prop :=
  ∃ before after, text = before ++ after ∧ byteLength before = n

theorem dropBytes_append (before after : List Char) :
    dropBytes (byteLength before) (before ++ after) = some after := by
  induction before with
  | nil => rw [byteLength, List.foldr_nil, List.nil_append, dropBytes]
  | cons c before ih =>
    obtain ⟨n, hn⟩ := Nat.exists_eq_add_of_lt c.utf8Size_pos
    have hlength : byteLength (c :: before) = n + byteLength before + 1 := by
      change c.utf8Size + byteLength before = _
      omega
    have hfits : c.utf8Size ≤ n + byteLength before + 1 := by omega
    have hrest : n + byteLength before + 1 - c.utf8Size = byteLength before := by omega
    rw [hlength, List.cons_append, dropBytes, if_pos hfits, hrest, ih]

theorem dropBytes_eq_some_iff {n : Nat} {after : List Char} :
    dropBytes n text = some after ↔ ∃ before, text = before ++ after ∧ byteLength before = n := by
  constructor
  · intro h
    fun_induction dropBytes n text with
    | case1 text => exact ⟨[], Option.some.inj h, rfl⟩
    | case2 => cases h
    | case3 n c rest hfits ih =>
      obtain ⟨before, rfl, hbefore⟩ := ih h
      refine ⟨c :: before, rfl, ?_⟩
      change c.utf8Size + byteLength before = n + 1
      omega
    | case4 => cases h
  · rintro ⟨before, rfl, rfl⟩
    exact dropBytes_append before after

theorem dropBytes_eq_none_iff {n : Nat} : dropBytes n text = none ↔ ¬ IsBoundary n text := by
  have hsome : (∃ after, dropBytes n text = some after) ↔ IsBoundary n text := by
    simp only [dropBytes_eq_some_iff, IsBoundary]
    exact exists_comm
  rw [Option.eq_none_iff_forall_ne_some, ← hsome, not_exists]

/-! ## Delimiters -/

theorem splitAtFirst_append {mark : Char} {before : List Char} (h : mark ∉ before)
    (after : List Char) : splitAtFirst mark (before ++ mark :: after) = some (before, after) := by
  induction before with
  | nil => exact if_pos rfl
  | cons c before ih =>
    obtain ⟨hc, hbefore⟩ := not_or.1 (mt List.mem_cons.2 h)
    rw [List.cons_append, splitAtFirst, if_neg (Ne.symm hc), ih hbefore]
    rfl

/-- The part after the last mark is the whole text or stands behind a mark, and has none itself. -/
theorem afterLast_eq_iff {mark : Char} {part : List Char} :
    afterLast mark text = part ↔ mark ∉ part ∧ (part = text ∨ mark :: part <:+ text) := by
  induction text with
  | nil =>
    constructor
    · rintro rfl
      exact ⟨List.not_mem_nil, .inl rfl⟩
    · rintro ⟨-, rfl | hsuffix⟩
      · rfl
      · cases List.suffix_nil.1 hsuffix
  | cons c rest ih =>
    have hbehind : mark :: part <:+ rest → mark ∈ rest := fun h => h.subset List.mem_cons_self
    rw [afterLast, List.suffix_cons_iff, List.cons.injEq]
    split
    · rename_i hmark
      rw [List.contains_iff_mem] at hmark
      rw [ih]
      refine and_congr_right fun hpart => ?_
      have hrest : part ≠ rest := fun heq => hpart (heq ▸ hmark)
      have hwhole : part ≠ c :: rest := fun heq => hpart (heq ▸ List.mem_cons_of_mem c hmark)
      simp [hrest, hwhole]
    · rename_i hmark
      rw [List.contains_iff_mem] at hmark
      have hnot : ¬ mark :: part <:+ rest := mt hbehind hmark
      split
      · rename_i hc
        subst hc
        constructor
        · rintro rfl
          exact ⟨hmark, .inr (.inl ⟨rfl, rfl⟩)⟩
        · rintro ⟨hpart, rfl | ⟨-, rfl⟩ | hsuffix⟩
          · exact absurd List.mem_cons_self hpart
          · rfl
          · exact absurd hsuffix hnot
      · rename_i hc
        constructor
        · rintro rfl
          exact ⟨List.not_mem_cons_of_ne_of_not_mem (Ne.symm hc) hmark, .inl rfl⟩
        · rintro ⟨-, rfl | ⟨rfl, -⟩ | hsuffix⟩
          · rfl
          · exact absurd rfl hc
          · exact absurd hsuffix hnot

/-! ## Lines -/

section

variable {β : Type} [DecidableEq β] {newline ret : β} {line : List β}

/-- May the characters stand in one line, so that a break after them is none of theirs? -/
def IsLine (newline ret : β) (line : List β) : Prop := newline ∉ line ∧ line.getLast? ≠ some ret

instance : Decidable (IsLine newline ret line) := inferInstanceAs (Decidable (_ ∧ _))

theorem lines_append (h : IsLine newline ret line) (rest : List β) :
    lines newline ret (line ++ newline :: rest) = line :: lines newline ret rest := by
  induction line with
  | nil => exact if_pos rfl
  | cons c line ih =>
    obtain ⟨hbreak, hlast⟩ := h
    obtain ⟨hc, hline⟩ := not_or.1 (mt List.mem_cons.2 hbreak)
    have hreturn : ¬ (c = ret ∧ (line ++ newline :: rest).head? = some newline) := by
      rintro ⟨rfl, hhead⟩
      cases line with
      | nil => exact hlast rfl
      | cons d line => exact hline (Option.some.inj hhead ▸ List.mem_cons_self)
    have hlast' : line.getLast? ≠ some ret := by
      cases line with
      | nil => exact nofun
      | cons d line => rwa [List.getLast?_cons_cons] at hlast
    rw [List.cons_append, lines, if_neg (Ne.symm hc), if_neg hreturn, ih ⟨hline, hlast'⟩]

theorem lines_of_notMem (hbreak : newline ∉ line) (hnonempty : line ≠ []) :
    lines newline ret line = [line] := by
  induction line with
  | nil => exact absurd rfl hnonempty
  | cons c line ih =>
    obtain ⟨hc, hline⟩ := not_or.1 (mt List.mem_cons.2 hbreak)
    have hreturn : ¬ (c = ret ∧ line.head? = some newline) := fun h =>
      hline (List.mem_of_mem_head? h.2)
    rw [lines, if_neg (Ne.symm hc), if_neg hreturn]
    cases line with
    | nil => rfl
    | cons d line => rw [ih hline (List.cons_ne_nil d line)]

/-- The lines of a text are those that were joined to it. An empty one at the end is lost. -/
theorem lines_intercalate {parts : List (List β)} (h : ∀ part ∈ parts, IsLine newline ret part)
    (hlast : parts.getLast? ≠ some []) :
    lines newline ret ([newline].intercalate parts) = parts := by
  induction parts with
  | nil => rfl
  | cons part parts ih =>
    obtain ⟨hpart, hparts⟩ := List.forall_mem_cons.1 h
    cases parts with
    | nil =>
      have hnonempty : part ≠ [] := fun hnil => hlast (congrArg some hnil)
      rw [List.intercalate_singleton]
      exact lines_of_notMem hpart.1 hnonempty
    | cons next parts =>
      rw [List.getLast?_cons_cons] at hlast
      have hjoined : [newline].intercalate (part :: next :: parts) =
          part ++ newline :: [newline].intercalate (next :: parts) := by
        simp [List.intercalate]
      rw [hjoined, lines_append hpart, ih hparts hlast]

end

theorem textLines_intercalate {parts : List String}
    (h : ∀ part ∈ parts, IsLine '\n' '\r' part.toList) (hlast : parts.getLast? ≠ some "") :
    textLines ("\n".intercalate parts) = parts := by
  have hjoined : ("\n".intercalate parts).toList = ['\n'].intercalate (parts.map String.toList) :=
    String.toList_intercalate
  have hlast' : (parts.map String.toList).getLast? ≠ some [] := by
    rw [List.getLast?_map, Ne, Option.map_eq_some_iff]
    rintro ⟨part, hpart, hnil⟩
    exact hlast (hpart.trans (congrArg some (String.toList_eq_nil_iff.1 hnil)))
  rw [textLines, hjoined, lines_intercalate (List.forall_mem_map.2 h) hlast', List.map_map]
  simp [Function.comp_def]

/-! ## What a search finds -/

section

variable {β : Type} {find : List Char → Option β} {found : β} {rest : List Char}

theorem firstMatch_of_some (h : find text = some found) : firstMatch find text = some found := by
  cases text with
  | nil => exact h
  | cons c text => rw [firstMatch, h, Option.some_or]

/-- A search passes over a start of the text where nothing is found. -/
theorem firstMatch_append (h : ∀ part, part <:+ text → part ≠ [] → find (part ++ rest) = none) :
    firstMatch find (text ++ rest) = firstMatch find rest := by
  induction text with
  | nil => rfl
  | cons c text ih =>
    have hhere : find (c :: (text ++ rest)) = none :=
      h (c :: text) (List.suffix_refl _) (List.cons_ne_nil c text)
    rw [List.cons_append, firstMatch, hhere, Option.none_or]
    exact ih fun part hpart => h part (hpart.trans (List.suffix_cons c text))

theorem longestBefore_append {inside : Char → Bool} {ends : List Char → Bool} {run : List Char}
    (hinside : ∀ c ∈ text, inside c) (h : longestBefore inside ends rest = some run) :
    longestBefore inside ends (text ++ rest) = some (text ++ run) := by
  induction text with
  | nil => exact h
  | cons c text ih =>
    obtain ⟨hc, htext⟩ := List.forall_mem_cons.1 hinside
    rw [List.cons_append, longestBefore, if_pos hc, ih htext, List.cons_append]

theorem longestBefore_eq_none {inside : Char → Bool} {ends : List Char → Bool}
    (h : ∀ part, part <:+ text → ends part = false) : longestBefore inside ends text = none := by
  induction text with
  | nil => simp [longestBefore, h [] (List.suffix_refl _)]
  | cons c text ih =>
    have hrest := ih fun part hpart => h part (hpart.trans (List.suffix_cons c text))
    rw [longestBefore, hrest, ite_self, h _ (List.suffix_refl _)]
    simp

/-- A search for a run passes over a start of the text at whose characters it may not end. -/
theorem longestBefore_append_eq_none {inside : Char → Bool} {ends : List Char → Bool}
    (h : ∀ part, part <:+ text → part ≠ [] → ends (part ++ rest) = false)
    (hrest : longestBefore inside ends rest = none) :
    longestBefore inside ends (text ++ rest) = none := by
  induction text with
  | nil => exact hrest
  | cons c text ih =>
    have hlater := ih fun part hpart => h part (hpart.trans (List.suffix_cons c text))
    have hhere : ends (c :: (text ++ rest)) = false :=
      h (c :: text) (List.suffix_refl _) (List.cons_ne_nil c text)
    rw [List.cons_append, longestBefore, hlater, ite_self, hhere]
    simp

end

/-! ## Words and blanks -/

theorem toNat_of_word {c : Char} (h : c.isAlphanum || c == '_') :
    0x30 ≤ c.toNat ∧ c.toNat < 0x7f := by
  change (decide (65 ≤ c.toNat ∧ c.toNat ≤ 90) || (decide (97 ≤ c.toNat) && decide (c.toNat ≤ 122))
    || (decide (48 ≤ c.toNat) && decide (c.toNat ≤ 57)) || c == '_') = true at h
  simp only [Bool.or_eq_true, Bool.and_eq_true, decide_eq_true_eq, beq_iff_eq] at h
  rcases h with ((hupper | hlower) | hdigit) | rfl
  · omega
  · omega
  · omega
  · decide

/-- The tables of word characters and of blanks hold no code point in common. -/
theorem wordRanges_apart_blankRanges :
    ∀ word ∈ wordRanges, ∀ blank ∈ blankRanges, word.2 < blank.1 ∨ blank.2 < word.1 := by
  decide +kernel

theorem not_isBlank_of_isWordChar {c : Char} (h : isWordChar c) : ¬ isBlank c := by
  intro hblank
  obtain ⟨blank, hmem, hstart, hend⟩ := CharRanges.contains_iff.1 hblank
  unfold isWordChar at h
  split at h
  · obtain ⟨hlow, hhigh⟩ := toNat_of_word h
    have hascii : ∀ blank ∈ blankRanges, blank.2 < 0x30 ∨ 0x7f ≤ blank.1 := by decide
    have hoff := hascii blank hmem
    omega
  · obtain ⟨word, hword, hfirst, hlast⟩ := CharRanges.contains_iff.1 h
    have hoff := wordRanges_apart_blankRanges word hword blank hmem
    omega

/-! ## Parts of a text -/

/-- A part without a character lies on one side of it. -/
theorem infix_or_infix {part before after : List Char} {c : Char} (hc : c ∉ part)
    (h : part <:+: before ++ c :: after) : part <:+: before ∨ part <:+: after := by
  rcases List.infix_append_iff.1 h with hbefore | hafter | ⟨left, right, rfl, hleft, hright⟩
  · exact .inl hbefore
  · rcases List.infix_cons_iff.1 hafter with hstart | hafter
    · rcases List.prefix_cons_iff.1 hstart with rfl | ⟨tail, rfl, -⟩
      · exact .inl List.nil_infix
      · exact absurd List.mem_cons_self hc
    · exact .inr hafter
  · rcases List.prefix_cons_iff.1 hright with rfl | ⟨tail, rfl, -⟩
    · rw [List.append_nil]
      exact .inl hleft.isInfix
    · simp at hc

/-- A part of a text stands somewhere for the first time. -/
theorem exists_first {part : List Char} (hpart : part ≠ []) (h : part <:+: text) :
    ∃ before after, text = before ++ (part ++ after) ∧ ¬ part <:+: before ++ part.dropLast := by
  have hshort (before : List Char) (hlength : before.length < part.length) :
      ¬ part <:+: before := fun hwithin => absurd hwithin.length_le (Nat.not_le_of_lt hlength)
  induction text with
  | nil => exact absurd (List.infix_nil.1 h) hpart
  | cons c text ih =>
    by_cases hhere : part <+: c :: text
    · obtain ⟨after, hafter⟩ := hhere
      refine ⟨[], after, hafter.symm, hshort _ ?_⟩
      have hpos := List.length_pos_iff.2 hpart
      simp only [List.nil_append, List.length_dropLast]
      omega
    · have hlater := (List.infix_cons_iff.1 h).resolve_left hhere
      obtain ⟨before, after, rfl, hfirst⟩ := ih hlater
      refine ⟨c :: before, after, rfl, fun hwithin => ?_⟩
      rcases List.infix_cons_iff.1 hwithin with hstart | hwithin
      · have hwhole : before ++ part.dropLast <+: before ++ (part ++ after) :=
          (List.prefix_append_right_inj _).2
            ((List.dropLast_prefix part).trans (List.prefix_append part after))
        exact absurd (hstart.trans ((List.prefix_cons_inj c).2 hwhole)) hhere
      · exact hfirst hwithin

/-- A part that stands somewhere for the first time stands nowhere before. -/
theorem length_le_of_first {part before before' after after' : List Char}
    (h : before ++ (part ++ after) = before' ++ (part ++ after'))
    (hfirst : ¬ part <:+: before' ++ part.dropLast) : before'.length ≤ before.length := by
  by_contra hless
  have hpart : before ++ part <+: before' ++ (part ++ after') :=
    ⟨after, by rw [← h, List.append_assoc]⟩
  have hstart : before' ++ part.dropLast <+: before' ++ (part ++ after') :=
    (List.prefix_append_right_inj _).2
      ((List.dropLast_prefix part).trans (List.prefix_append part after'))
  have hlength : (before ++ part).length ≤ (before' ++ part.dropLast).length := by
    simp only [List.length_append, List.length_dropLast]
    omega
  exact hfirst ((List.suffix_append before part).isInfix.trans
    (List.prefix_of_prefix_length_le hpart hstart hlength).isInfix)

end AttackSurface.Text
