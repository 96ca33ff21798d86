import AttackSurface.Toml.Lexical
import AttackSurface.Toml.Writer
import Mathlib.Data.List.Basic

/-! Strings of a document. In whatever form a string is written, with whatever escapes, it is read
back. -/
namespace AttackSurface.Toml

variable {multi : Bool} {c quote : Char} {text rest after : List Char}

/-! ## Escapes -/

/-- After a backslash, the text stands for a character. -/
def IsEscapeOf (multi : Bool) (escape : List Char) (c : Char) : Prop :=
  ∀ ⦃rest text after : List Char⦄, quotedRest multi .plain rest = some (text, after) →
    quotedRest multi .escape (escape ++ rest) = some (c :: text, after)

theorem isEscapeOf_letter {letter : Char} (h : escaped? letter = some c) :
    IsEscapeOf multi [letter] c := by
  intro rest text after hrest
  have hu : letter ≠ 'u' := by
    rintro rfl
    cases h
  have hU : letter ≠ 'U' := by
    rintro rfl
    cases h
  have hspace : isSpace letter = false := by
    rw [isSpace, Bool.or_eq_false_iff, beq_eq_false_iff_ne, beq_eq_false_iff_ne]
    constructor <;> rintro rfl <;> cases h
  have hbreak : letter ≠ '\n' := by
    rintro rfl
    cases h
  have hreturn : letter ≠ '\r' := by
    rintro rfl
    cases h
  simp [quotedRest, hu, hU, hspace, hbreak, hreturn, h, hrest]

/-- The number that hexadecimal digits add to, after those of `value`. -/
def hexNumber? (value : ℕ) (digits : List Char) : Option ℕ :=
  digits.foldlM (fun value digit => (Text.hexValue? digit).map (16 * value + ·)) value

theorem quotedRest_code {left value code : ℕ} {digits : List Char}
    (hlength : digits.length = left + 1) (hcode : hexNumber? value digits = some code)
    (hc : Text.codePoint? code = some c)
    (hrest : quotedRest multi .plain rest = some (text, after)) :
    quotedRest multi (.code left value) (digits ++ rest) = some (c :: text, after) := by
  induction digits generalizing left value with
  | nil => cases hlength
  | cons digit digits ih =>
    simp only [hexNumber?, List.foldlM_cons, Option.bind_eq_bind, Option.bind_eq_some_iff,
      Option.map_eq_some_iff] at hcode
    obtain ⟨_, ⟨n, hn, rfl⟩, hcode⟩ := hcode
    cases left with
    | zero =>
      obtain rfl : digits = [] := by simpa using hlength
      simp only [List.foldlM_nil] at hcode
      cases hcode
      simp [quotedRest, hn, hc, hrest]
    | succ left =>
      simp only [List.cons_append, quotedRest, hn]
      exact ih (by simpa using hlength) hcode

theorem codePoint?_toNat (c : Char) : Text.codePoint? c.toNat = some c := by
  have hvalid : c.toNat.isValidChar := c.valid
  rw [Text.codePoint?, if_pos hvalid, Char.ofNat_toNat]

theorem hexNumber?_escapeCode (n : Fin 128) :
    let digits := (Nat.toDigits 16 n).map Char.toUpper
    let padded := List.replicate (4 - digits.length) '0' ++ digits
    padded.length = 4 ∧ hexNumber? 0 padded = some n.val := by
  revert n
  decide +kernel

theorem isEscapeOf_code (h : c.toNat < 128) :
    ∃ escape, escapeCode c = '\\' :: escape ∧ IsEscapeOf multi escape c := by
  obtain ⟨hlength, hvalue⟩ := hexNumber?_escapeCode ⟨c.toNat, h⟩
  refine ⟨_, rfl, fun rest text after hrest => ?_⟩
  rw [List.cons_append, quotedRest, if_pos rfl]
  exact quotedRest_code hlength hvalue (codePoint?_toNat c) hrest

theorem lt_of_needsEscape (h : needsEscape c) : c.toNat < 128 := by
  have hcode : (c.toNat < 0x20 ∧ c ≠ '\t') ∧ c ≠ '\n' ∨ c.toNat = 0x7f := by
    simpa [needsEscape] using h
  omega

/-- A character that needs no escape is plain, or a line break. -/
theorem isPlain_of_needsEscape (h : needsEscape c = false) : isPlain c ∨ c = '\n' := by
  by_cases htab : c = '\t'
  · exact .inl (by rw [htab]; rfl)
  by_cases hbreak : c = '\n'
  · exact .inr hbreak
  have hcode : 0x20 ≤ c.toNat ∧ c.toNat ≠ 0x7f := by simpa [needsEscape, htab, hbreak] using h
  exact .inl (by simp [isPlain, hcode])

/-- A character is shown by an escape or as it is. -/
theorem escapeChar_cases (multi : Bool) (c : Char) :
    (∃ escape, escapeChar multi c = '\\' :: escape ∧ IsEscapeOf multi escape c) ∨
      escapeChar multi c = [c] ∧ c ≠ '\\' ∧ c ≠ '\r' ∧ (isPlain c ∨ multi ∧ c = '\n') := by
  unfold escapeChar
  split_ifs with hback htab hbreak hmulti hfeed hreturn hbackslash hcontrol
  · exact .inl ⟨['b'], rfl, isEscapeOf_letter (hback ▸ rfl)⟩
  · exact .inl ⟨['t'], rfl, isEscapeOf_letter (htab ▸ rfl)⟩
  · exact .inr ⟨rfl, by simp [hbreak], by simp [hbreak], .inr ⟨hmulti, hbreak⟩⟩
  · exact .inl ⟨['n'], rfl, isEscapeOf_letter (hbreak ▸ rfl)⟩
  · exact .inl ⟨['f'], rfl, isEscapeOf_letter (hfeed ▸ rfl)⟩
  · exact .inl ⟨['r'], rfl, isEscapeOf_letter (hreturn ▸ rfl)⟩
  · exact .inl ⟨['\\'], rfl, isEscapeOf_letter (by rw [hbackslash]; rfl)⟩
  · exact .inl (isEscapeOf_code (lt_of_needsEscape hcontrol))
  · have hplain := isPlain_of_needsEscape (eq_false_of_ne_true hcontrol)
    exact .inr ⟨rfl, hbackslash, hreturn, .inl (hplain.resolve_right hbreak)⟩

/-! ## Between double quotes -/

theorem quotedRest_plain (multi : Bool) (c : Char) (rest : List Char) :
    quotedRest multi .plain (c :: rest) =
      if c = '"' ∧ !multi then some ([], rest)
      else if c = '"' ∧ closes '"' rest then some (endQuotes '"' (rest.drop 2))
      else if c = '\\' then quotedRest multi .escape rest
      else if multi ∧ c = '\r' ∧ rest.head? = some '\n' then quotedRest multi .plain rest
      else if isPlain c ∨ (multi ∧ c = '\n') then
        (quotedRest multi .plain rest).bind fun (text, after) => some (c :: text, after)
      else none := by
  simp [quotedRest]

theorem quotedRest_escapeChar (hc : c ≠ '"')
    (h : quotedRest multi .plain rest = some (text, after)) :
    quotedRest multi .plain (escapeChar multi c ++ rest) = some (c :: text, after) := by
  rcases escapeChar_cases multi c with
    ⟨escape, hshown, hescape⟩ | ⟨hshown, hbackslash, hreturn, hplain⟩
  · rw [hshown, List.cons_append, quotedRest_plain]
    simpa using hescape h
  · rw [hshown, List.singleton_append, quotedRest_plain, h]
    simp [hc, hbackslash, hreturn, hplain]

theorem quotedRest_escapedQuote (h : quotedRest multi .plain rest = some (text, after)) :
    quotedRest multi .plain ('\\' :: '"' :: rest) = some ('"' :: text, after) := by
  have hescape : IsEscapeOf multi ['"'] '"' := isEscapeOf_letter rfl
  rw [quotedRest_plain]
  simpa using hescape h

/-- Content starts with a backslash or with the first character of the text. -/
theorem head?_escapeQuoted (multi : Bool) (quotes : ℕ) (c : Char) (text : List Char) :
    (escapeQuoted multi quotes (c :: text)).head? = some '\\' ∨
      (escapeQuoted multi quotes (c :: text)).head? = some c ∧ c ≠ '\r' ∧ (c = '"' → multi) := by
  by_cases hc : c = '"'
  · subst hc
    cases multi with
    | false => exact .inl (by simp [escapeQuoted])
    | true =>
      by_cases hquotes : 2 < quotes + 1
      · exact .inl (by simp [escapeQuoted, hquotes])
      · exact .inr ⟨by simp [escapeQuoted, hquotes], by decide, fun _ => rfl⟩
  · rw [escapeQuoted, if_neg hc]
    rcases escapeChar_cases multi c with ⟨escape, hshown, -⟩ | ⟨hshown, -, hreturn, -⟩
    · exact .inl (by simp [hshown])
    · exact .inr ⟨by simp [hshown], hreturn, fun heq => absurd heq hc⟩

/-- A string on one line. -/
theorem quotedRest_line (text rest : List Char) :
    quotedRest false .plain (escapeQuoted false 0 text ++ '"' :: rest) = some (text, rest) := by
  induction text with
  | nil => rfl
  | cons c text ih =>
    by_cases hc : c = '"'
    · rw [hc]
      exact quotedRest_escapedQuote ih
    · rw [escapeQuoted, if_neg hc, List.append_assoc]
      exact quotedRest_escapeChar hc ih

/-! ## Delimiters -/

/-- A delimiter of a string on several lines. -/
def delimiter (quote : Char) : List Char := [quote, quote, quote]

theorem closes_cons (quote a : Char) (rest : List Char) :
    closes quote (a :: rest) = (a == quote && rest.head? == some quote) := by
  obtain _ | ⟨b, rest⟩ := rest
  · simp [closes, List.isPrefixOf]
  · simp [closes, List.isPrefixOf, BEq.comm]

theorem endQuotes_nil (hrest : rest.head? ≠ some quote) : endQuotes quote rest = ([], rest) := by
  obtain _ | ⟨a, _ | ⟨b, rest⟩⟩ := rest
  · rfl
  · have ha : a ≠ quote := fun heq => hrest (by rw [heq]; rfl)
    simp [endQuotes, ha]
  · have ha : a ≠ quote := fun heq => hrest (by rw [heq]; rfl)
    simp [endQuotes, ha]

theorem endQuotes_cons (hrest : rest.head? ≠ some quote) :
    endQuotes quote (quote :: rest) = ([quote], rest) := by
  obtain _ | ⟨c, rest⟩ := rest
  · simp [endQuotes]
  · have hc : c ≠ quote := fun heq => hrest (by rw [heq]; rfl)
    simp [endQuotes, hc]

/-- After a quote, content that does not start with two more either does not close a string, or is
at most one quote more before the delimiter. -/
theorem closes_or {body : List Char} (hrest : rest.head? ≠ some quote)
    (hbody : closes quote body = false) :
    closes quote (body ++ delimiter quote ++ rest) = false ∨
      closes quote (body ++ delimiter quote ++ rest) = true ∧ (body = [] ∨ body = [quote]) ∧
        endQuotes quote ((body ++ delimiter quote ++ rest).drop 2) = (quote :: body, rest) := by
  match body with
  | [] => exact .inr ⟨by simp [closes_cons, delimiter], .inl rfl, endQuotes_cons hrest⟩
  | [a] =>
    by_cases ha : a = quote
    · refine .inr ⟨by simp [closes_cons, delimiter, ha], .inr (by rw [ha]), ?_⟩
      simp [delimiter, endQuotes, ha]
    · exact .inl (by simp [closes_cons, ha])
  | a :: b :: body =>
    exact .inl (by simpa [closes_cons] using hbody)

/-- Content of several lines starts with a quote only for a quote that is not the third in a row. -/
theorem escapeQuoted_cases (quotes : ℕ) (text : List Char) :
    (escapeQuoted true quotes text).head? ≠ some '"' ∨
      ∃ rest, text = '"' :: rest ∧ quotes < 2 ∧
        escapeQuoted true quotes text = '"' :: escapeQuoted true (quotes + 1) rest := by
  obtain _ | ⟨c, text⟩ := text
  · exact .inl nofun
  · by_cases hc : c = '"'
    · subst hc
      by_cases hquotes : quotes < 2
      · refine .inr ⟨text, rfl, hquotes, ?_⟩
        rw [escapeQuoted, if_pos rfl, if_pos rfl, if_neg (by omega)]
      · left
        rw [escapeQuoted, if_pos rfl, if_pos rfl, if_pos (by omega)]
        simp
    · left
      rcases head?_escapeQuoted true quotes c text with hhead | ⟨hhead, -⟩
      · simp [hhead]
      · simpa [hhead] using hc

theorem escapeQuoted_eq_nil {quotes : ℕ} (h : escapeQuoted true quotes text = []) : text = [] := by
  obtain _ | ⟨c, text⟩ := text
  · rfl
  · rcases head?_escapeQuoted true quotes c text with hhead | ⟨hhead, -⟩ <;> simp [h] at hhead

theorem escapeQuoted_eq_quote {quotes : ℕ} (h : escapeQuoted true quotes text = ['"']) :
    text = ['"'] := by
  rcases escapeQuoted_cases quotes text with hhead | ⟨rest, rfl, -, hshown⟩
  · exact absurd (by rw [h]; rfl) hhead
  · rw [hshown] at h
    rw [escapeQuoted_eq_nil (List.tail_eq_of_cons_eq h)]

theorem closes_of_head? (h : text.head? ≠ some quote) : closes quote text = false := by
  obtain _ | ⟨a, rest⟩ := text
  · rfl
  · have ha : a ≠ quote := fun heq => h (by rw [heq]; rfl)
    simp [closes_cons, ha]

/-- No more than two quotes stand in a row without an escape. -/
theorem closes_escapeQuoted {quotes : ℕ} (hquotes : quotes ≠ 0) (text : List Char) :
    closes '"' (escapeQuoted true quotes text) = false := by
  rcases escapeQuoted_cases quotes text with hhead | ⟨rest, -, hlt, hshown⟩
  · exact closes_of_head? hhead
  · rw [hshown]
    rcases escapeQuoted_cases (quotes + 1) rest with hhead | ⟨_, -, hlt', -⟩
    · simp [closes_cons, hhead]
    · omega

/-- A string on several lines. -/
theorem quotedRest_lines (hrest : rest.head? ≠ some '"') (quotes : ℕ) (text : List Char) :
    quotedRest true .plain (escapeQuoted true quotes text ++ delimiter '"' ++ rest) =
      some (text, rest) := by
  induction text generalizing quotes with
  | nil =>
    have hdelimiter : ['"', '"', '"'] ++ rest = '"' :: '"' :: '"' :: rest := rfl
    rw [escapeQuoted, List.nil_append, delimiter, hdelimiter, quotedRest_plain]
    simp [closes_cons, endQuotes_nil hrest]
  | cons c text ih =>
    by_cases hc : c = '"'
    · subst hc
      rw [escapeQuoted, if_pos rfl, if_pos rfl]
      split
      · exact quotedRest_escapedQuote (ih 0)
      · rw [List.cons_append, List.cons_append, quotedRest_plain]
        rcases closes_or hrest (closes_escapeQuoted quotes.succ_ne_zero text) with
          hopen | ⟨hclosed, hbody, hend⟩
        · rw [if_neg (by simp), hopen, if_neg (by simp), ih]
          simp [isPlain]
        · rw [if_neg (by simp), if_pos ⟨rfl, hclosed⟩, hend]
          rcases hbody with hnil | hquote
          · rw [hnil, escapeQuoted_eq_nil hnil]
          · rw [hquote, escapeQuoted_eq_quote hquote]
    · rw [escapeQuoted, if_neg hc, List.append_assoc, List.append_assoc,
        ← List.append_assoc _ _ rest]
      exact quotedRest_escapeChar hc (ih 0)

/-! ## Between single quotes -/

theorem literalRest_cons (multi : Bool) (c : Char) (rest : List Char) :
    literalRest multi (c :: rest) =
      if c = '\'' ∧ !multi then some ([], rest)
      else if c = '\'' ∧ closes '\'' rest then some (endQuotes '\'' (rest.drop 2))
      else if multi ∧ c = '\r' ∧ rest.head? = some '\n' then literalRest multi rest
      else if isPlain c ∨ (multi ∧ c = '\n') then
        (literalRest multi rest).bind fun (text, after) => some (c :: text, after)
      else none := by
  simp [literalRest]

/-- A string on one line, without single quotes. -/
theorem literalRest_line (h : ∀ c ∈ text, isPlain c ∧ c ≠ '\'') (rest : List Char) :
    literalRest false (text ++ '\'' :: rest) = some (text, rest) := by
  induction text with
  | nil => rfl
  | cons c text ih =>
    obtain ⟨⟨hplain, hquote⟩, h⟩ := List.forall_mem_cons.1 h
    rw [List.cons_append, literalRest_cons, ih h]
    simp [hplain, hquote]

theorem le_longestRun (c : Char) (run : ℕ) (text : List Char) : run ≤ longestRun c run text := by
  induction text generalizing run with
  | nil => exact Nat.le_refl run
  | cons d text ih =>
    rw [longestRun]
    split
    · exact Nat.le_trans (Nat.le_succ run) (ih (run + 1))
    · exact Nat.le_max_left run _

/-- After a quote in a text without three in a row, there are no two more. -/
theorem closes_of_longestRun {run : ℕ} (h : longestRun quote (run + 1) text ≤ 2) :
    closes quote text = false := by
  match text with
  | [] => rfl
  | [a] => simp [closes_cons]
  | a :: b :: text =>
    by_contra hclosed
    obtain ⟨ha, hb⟩ : a = quote ∧ b = quote := by simpa [closes_cons] using hclosed
    rw [longestRun, if_pos ha, longestRun, if_pos hb] at h
    have hle := le_longestRun quote (run + 1 + 1 + 1) text
    omega

/-- A string on several lines, without three single quotes in a row. -/
theorem literalRest_lines (hrest : rest.head? ≠ some '\'') {run : ℕ}
    (h : ∀ c ∈ text, isPlain c ∨ c = '\n') (hrun : longestRun '\'' run text ≤ 2) :
    literalRest true (text ++ delimiter '\'' ++ rest) = some (text, rest) := by
  induction text generalizing run with
  | nil =>
    have hdelimiter : ['\'', '\'', '\''] ++ rest = '\'' :: '\'' :: '\'' :: rest := rfl
    rw [List.nil_append, delimiter, hdelimiter, literalRest_cons]
    simp [closes_cons, endQuotes_nil hrest]
  | cons c text ih =>
    obtain ⟨hplain, htext⟩ := List.forall_mem_cons.1 h
    have hreturn : c ≠ '\r' := by
      rintro rfl
      exact absurd hplain (by decide)
    rw [List.cons_append, List.cons_append, literalRest_cons]
    by_cases hc : c = '\''
    · subst hc
      rw [longestRun, if_pos rfl] at hrun
      rcases closes_or hrest (closes_of_longestRun hrun) with hopen | ⟨hclosed, -, hend⟩
      · rw [if_neg (by simp), hopen, if_neg (by simp), ih htext hrun]
        simp [isPlain]
      · rw [if_neg (by simp), if_pos ⟨rfl, hclosed⟩, hend]
    · rw [longestRun, if_neg hc] at hrun
      rw [ih htext (Nat.le_trans (Nat.le_max_right run _) hrun)]
      simp [hc, hreturn, hplain]

/-! ## Forms -/

/-- A form shows a text as it is, or can show every text. -/
def StringForm.Suits : StringForm → List Char → Prop
  | .basic, _ => True
  | .literal, text => text ≠ [] ∧ ∀ c ∈ text, isPlain c ∧ c ≠ '\''
  | .multiBasic, _ => True
  | .multiLiteral, text => (∀ c ∈ text, isPlain c ∨ c = '\n') ∧ longestRun '\'' 0 text ≤ 2

theorem notMem_of_longestRun {run : ℕ} (h : longestRun quote run text = 0) : quote ∉ text := by
  induction text generalizing run with
  | nil => exact List.not_mem_nil
  | cons c text ih =>
    rw [longestRun] at h
    split at h
    case isTrue => exact absurd (le_longestRun quote (run + 1) text) (by omega)
    case isFalse hc =>
      have hrest : longestRun quote 0 text = 0 := by omega
      exact List.not_mem_cons_of_ne_of_not_mem (Ne.symm hc) (ih hrest)

theorem suits_of (text : List Char) : (StringForm.of text).Suits text := by
  have hplain (hescapes : text.any needsEscape = false) {c : Char} (hc : c ∈ text) :
      isPlain c ∨ c = '\n' :=
    isPlain_of_needsEscape (eq_false_of_ne_true (List.any_eq_false.1 hescapes c hc))
  simp only [StringForm.of]
  split_ifs with hbasic hliteral hmulti hquotes
  · trivial
  · obtain ⟨⟨hescapes, hsingle⟩, hbreaks⟩ : (text.any needsEscape = false ∧
        longestRun '\'' 0 text = 0) ∧ '\n' ∉ text := by simpa using hliteral
    refine ⟨fun hnil => hbasic (by rw [hnil]; rfl), fun c hc => ⟨?_, ?_⟩⟩
    · exact (hplain hescapes hc).resolve_right fun heq => hbreaks (heq ▸ hc)
    · exact fun heq => notMem_of_longestRun hsingle (heq ▸ hc)
  · trivial
  · obtain ⟨hescapes, hsingle⟩ : text.any needsEscape = false ∧
        longestRun '\'' 0 text ≤ 2 := by simpa using hquotes
    exact ⟨fun c hc => hplain hescapes hc, hsingle⟩
  · trivial
  · trivial

/-- The line break between the delimiter and a text of several lines. -/
def leadingBreak (text : List Char) : List Char := if text.contains '\n' then ['\n'] else []

/-- The line break after the delimiter is read over, and no other. -/
theorem lineBreak?_leadingBreak {body : List Char}
    (h : '\n' ∉ text → body.head? ≠ some '\n' ∧ body.head? ≠ some '\r') :
    (lineBreak? (leadingBreak text ++ body)).getD (leadingBreak text ++ body) = body := by
  unfold leadingBreak
  by_cases hbreak : '\n' ∈ text
  · simp [hbreak, lineBreak?]
  · obtain ⟨hbreak', hreturn⟩ := h hbreak
    have hnone : lineBreak? body = none := by
      unfold lineBreak?
      split
      · exact absurd rfl hbreak'
      · exact absurd rfl hreturn
      · rfl
    simp [hbreak, hnone]

theorem scanString_double {body : List Char} (h : closes '"' body = false) :
    scanString ('"' :: body) =
      (quotedRest false .plain body).map fun (text, rest) => (String.ofList text, rest) := by
  simp only [scanString]
  split
  case h_1 heq =>
    obtain ⟨-, rfl⟩ := List.cons.inj heq
    simp [closes_cons] at h
  case h_2 heq => rw [(List.cons.inj heq).2]
  case h_3 heq => simp at heq
  case h_4 heq => simp at heq
  case h_5 hnone _ _ => exact absurd rfl (hnone body)

theorem scanString_single {body : List Char} (h : closes '\'' body = false) :
    scanString ('\'' :: body) =
      (literalRest false body).map fun (text, rest) => (String.ofList text, rest) := by
  simp only [scanString]
  split
  case h_1 heq => simp at heq
  case h_2 heq => simp at heq
  case h_3 heq =>
    obtain ⟨-, rfl⟩ := List.cons.inj heq
    simp [closes_cons] at h
  case h_4 heq => rw [(List.cons.inj heq).2]
  case h_5 hnone => exact absurd rfl (hnone body)

theorem scanString_basic (text : List Char) (hrest : rest.head? ≠ some '"') :
    scanString (StringForm.basic.write text ++ rest) = some (String.ofList text, rest) := by
  have hopen : closes '"' (escapeQuoted false 0 text ++ '"' :: rest) = false := by
    obtain _ | ⟨c, text⟩ := text
    · simp [escapeQuoted, closes_cons, hrest]
    · apply closes_of_head?
      rcases head?_escapeQuoted false 0 c text with hhead | ⟨hhead, -, hquote⟩
      · simp [hhead]
      · simpa [hhead] using hquote
  have hwritten : StringForm.basic.write text ++ rest =
      '"' :: (escapeQuoted false 0 text ++ '"' :: rest) := by simp [StringForm.write]
  rw [hwritten, scanString_double hopen, quotedRest_line]
  rfl

theorem scanString_literal (hne : text ≠ []) (h : ∀ c ∈ text, isPlain c ∧ c ≠ '\'')
    (rest : List Char) :
    scanString (StringForm.literal.write text ++ rest) = some (String.ofList text, rest) := by
  have hopen : closes '\'' (text ++ '\'' :: rest) = false := by
    obtain _ | ⟨c, text⟩ := text
    · exact absurd rfl hne
    · exact closes_of_head? (by simpa using (h c List.mem_cons_self).2)
  have hwritten : StringForm.literal.write text ++ rest = '\'' :: (text ++ '\'' :: rest) := by
    simp [StringForm.write]
  rw [hwritten, scanString_single hopen, literalRest_line h]
  rfl

theorem scanString_multiBasic (text : List Char) (hrest : rest.head? ≠ some '"') :
    scanString (StringForm.multiBasic.write text ++ rest) = some (String.ofList text, rest) := by
  have hwritten : StringForm.multiBasic.write text ++ rest = '"' :: '"' :: '"' ::
      (leadingBreak text ++ (escapeQuoted true 0 text ++ delimiter '"' ++ rest)) := by
    simp [StringForm.write, leadingBreak, delimiter]
  have hbody (hbreak : '\n' ∉ text) :
      (escapeQuoted true 0 text ++ delimiter '"' ++ rest).head? ≠ some '\n' ∧
        (escapeQuoted true 0 text ++ delimiter '"' ++ rest).head? ≠ some '\r' := by
    obtain _ | ⟨c, text⟩ := text
    · simp [escapeQuoted, delimiter]
    · have hc : c ≠ '\n' := fun heq => hbreak (heq ▸ List.mem_cons_self)
      rcases head?_escapeQuoted true 0 c text with hhead | ⟨hhead, hreturn, -⟩
      · simp [hhead]
      · simp [hhead, hc, hreturn]
  rw [hwritten, scanString]
  simp only [lineBreak?_leadingBreak hbody, quotedRest_lines hrest]
  rfl

theorem scanString_multiLiteral (h : ∀ c ∈ text, isPlain c ∨ c = '\n')
    (hrun : longestRun '\'' 0 text ≤ 2) (hrest : rest.head? ≠ some '\'') :
    scanString (StringForm.multiLiteral.write text ++ rest) = some (String.ofList text, rest) := by
  have hwritten : StringForm.multiLiteral.write text ++ rest = '\'' :: '\'' :: '\'' ::
      (leadingBreak text ++ (text ++ delimiter '\'' ++ rest)) := by
    simp [StringForm.write, leadingBreak, delimiter]
  have hbody (hbreak : '\n' ∉ text) : (text ++ delimiter '\'' ++ rest).head? ≠ some '\n' ∧
      (text ++ delimiter '\'' ++ rest).head? ≠ some '\r' := by
    obtain _ | ⟨c, text⟩ := text
    · simp [delimiter]
    · have hc : c ≠ '\n' := fun heq => hbreak (heq ▸ List.mem_cons_self)
      have hreturn : c ≠ '\r' := by
        rintro rfl
        exact absurd (h '\r' List.mem_cons_self) (by decide)
      simp [hc, hreturn]
  rw [hwritten, scanString]
  simp only [lineBreak?_leadingBreak hbody, literalRest_lines hrest h hrun]
  rfl

/-- What is written for a string is read as the string, if no quote follows. -/
theorem scanString_write {form : StringForm} (h : form.Suits text)
    (hdouble : rest.head? ≠ some '"') (hsingle : rest.head? ≠ some '\'') :
    scanString (form.write text ++ rest) = some (String.ofList text, rest) := by
  cases form with
  | basic => exact scanString_basic text hdouble
  | literal => exact scanString_literal h.1 h.2 rest
  | multiBasic => exact scanString_multiBasic text hdouble
  | multiLiteral => exact scanString_multiLiteral h.1 h.2 hsingle

theorem scanString_writeString (s : String) (hdouble : rest.head? ≠ some '"')
    (hsingle : rest.head? ≠ some '\'') :
    scanString (writeString s ++ rest) = some (s, rest) := by
  rw [writeString, scanString_write (suits_of _) hdouble hsingle, String.ofList_toList]

end AttackSurface.Toml
