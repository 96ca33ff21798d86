import AttackSurface.Decimal.Numeral
import AttackSurface.Proofs.Decimal.Nearest
import AttackSurface.Toml.Word
import AttackSurface.Toml.Writer

/-! Numbers as words of a document. What is written for a natural or a floating-point number is one
word, is read as a number of its own kind and gives that number back. -/
namespace AttackSurface

/-! ## Digits -/

namespace Decimal

variable {digits : List Char} {n : ℕ}

theorem isDigits_iff : isDigits digits ↔ digits ≠ [] ∧ ∀ c ∈ digits, c.isDigit := by
  simp [isDigits]

theorem isDigits_toDigits (n : ℕ) : isDigits (Nat.toDigits 10 n) :=
  isDigits_iff.2 ⟨Nat.toDigits_ne_nil, fun _ => Nat.isDigit_of_mem_toDigits (by decide) (by decide)⟩

theorem digitsValue_toDigits (n : ℕ) : digitsValue (Nat.toDigits 10 n) = n :=
  Nat.ofDigitChars_ten_toDigits

/-- The first digit of a positive number is none that could be left out. -/
theorem head?_toDigits (hn : 0 < n) : (Nat.toDigits 10 n).head? ≠ some '0' := by
  have hone : ∀ k < 10, 0 < k → k.digitChar ≠ '0' := by decide
  induction n using Nat.strong_induction_on with
  | h n ih =>
    rw [Nat.toDigits_eq_if (by decide)]
    split
    case isTrue hlt => simpa using hone n hlt hn
    case isFalse hge =>
      rw [List.head?_append_of_ne_nil _ Nat.toDigits_ne_nil]
      exact ih (n / 10) (by omega) (by omega)

theorem digitsValue_append_zeros (digits : List Char) (k : ℕ) :
    digitsValue (digits ++ List.replicate k '0') = digitsValue digits * 10 ^ k := by
  have happend := Nat.ofDigitChars_append (b := 10) (l := digits) (m := List.replicate k '0') 0
  rw [Nat.ofDigitChars_replicate_zero, mul_comm] at happend
  exact happend

theorem digitsValue_zeros_append (digits : List Char) (k : ℕ) :
    digitsValue (List.replicate k '0' ++ digits) = digitsValue digits := by
  have happend := Nat.ofDigitChars_append (b := 10) (l := List.replicate k '0') (m := digits) 0
  rw [Nat.ofDigitChars_replicate_zero, mul_zero] at happend
  exact happend

theorem dropEndZeros_append (digits : List Char) :
    (dropEndZeros digits).1 ++ List.replicate (dropEndZeros digits).2 '0' = digits := by
  have hsplit : (digits.reverse.dropWhile (· == '0')).reverse ++
      (digits.reverse.takeWhile (· == '0')).reverse = digits := by
    rw [← List.reverse_append, List.takeWhile_append_dropWhile, List.reverse_reverse]
  have hlength := congrArg List.length hsplit
  have hzeros : (digits.reverse.takeWhile (· == '0')).reverse =
      List.replicate (digits.length - (digits.reverse.dropWhile (· == '0')).reverse.length)
        '0' := by
    refine List.eq_replicate_iff.2 ⟨?_, fun c hc => ?_⟩
    · rw [List.length_append] at hlength
      omega
    · simpa using List.mem_takeWhile_imp (List.mem_reverse.1 hc)
  rw [hzeros] at hsplit
  exact hsplit

/-! ## Numbers with a point -/

/-- Digits before and after a point, without a needless zero. -/
structure IsPointed (whole fraction : List Char) : Prop where
  isDigits_whole : isDigits whole
  isDigits_fraction : isDigits fraction
  length_of_zero : whole.head? = some '0' → whole.length = 1

/-- Digits on both sides of a point are digits, and the point. -/
theorem IsPointed.part {whole fraction : List Char} (h : IsPointed whole fraction) :
    ∀ c ∈ whole ++ '.' :: fraction, c.isDigit ∨ c = '.' :=
  List.forall_mem_append.2 ⟨fun c hc => .inl ((isDigits_iff.1 h.isDigits_whole).2 c hc),
    List.forall_mem_cons.2 ⟨.inr rfl,
      fun c hc => .inl ((isDigits_iff.1 h.isDigits_fraction).2 c hc)⟩⟩

/-- The number that digits before and after a point are read as. -/
def pointed (negative : Bool) (whole fraction : List Char) : Decimal where
  negative := negative
  digits := digitsValue (whole ++ fraction)
  exponent := -fraction.length

theorem point_notMem (h : ∀ c ∈ digits, c.isDigit) : '.' ∉ digits := fun hpoint =>
  absurd (h '.' hpoint) (by decide)

theorem isDigit_of_mem_replicate {k : ℕ} : ∀ c ∈ List.replicate k '0', c.isDigit := by
  intro c hc
  rw [List.eq_of_mem_replicate hc]
  rfl

variable {kept : List Char} {d : Decimal}

/-- A positional form is made of the digits up to the last that is no zero. -/
theorem exists_kept (hd : 0 < d.digits) :
    ∃ kept zeros, dropEndZeros (Nat.toDigits 10 d.digits) = (kept, zeros) ∧ isDigits kept ∧
      kept.head? ≠ some '0' ∧ d.digits = digitsValue kept * 10 ^ zeros := by
  obtain ⟨kept, zeros, hends⟩ :
      ∃ kept zeros, dropEndZeros (Nat.toDigits 10 d.digits) = (kept, zeros) := ⟨_, _, rfl⟩
  have hkept : kept ++ List.replicate zeros '0' = Nat.toDigits 10 d.digits := by
    simpa [hends] using dropEndZeros_append (Nat.toDigits 10 d.digits)
  obtain ⟨-, hall⟩ := isDigits_iff.1 (isDigits_toDigits d.digits)
  have hhead := head?_toDigits hd
  have hne : kept ≠ [] := by
    rintro rfl
    rw [List.nil_append] at hkept
    cases zeros with
    | zero => exact Nat.toDigits_ne_nil hkept.symm
    | succ zeros => exact hhead (by rw [← hkept, List.replicate_succ, List.head?_cons])
  refine ⟨kept, zeros, hends, isDigits_iff.2 ⟨hne, fun c hc => hall c ?_⟩, ?_, ?_⟩
  · rw [← hkept]
    exact List.mem_append_left _ hc
  · rwa [← hkept, List.head?_append_of_ne_nil _ hne] at hhead
  · rw [← digitsValue_append_zeros, hkept, digitsValue_toDigits]

/-- Digits with zeros after them show a whole number. -/
theorem isPointed_whole (hdigits : isDigits kept) (hhead : kept.head? ≠ some '0') (k : ℕ) :
    IsPointed (kept ++ List.replicate k '0') ['0'] := by
  obtain ⟨hne, hall⟩ := isDigits_iff.1 hdigits
  refine ⟨isDigits_iff.2 ⟨by simp [hne], ?_⟩, rfl, fun hzero => ?_⟩
  · exact List.forall_mem_append.2 ⟨hall, isDigit_of_mem_replicate⟩
  · rw [List.head?_append_of_ne_nil _ hne] at hzero
    exact absurd hzero hhead

theorem toFloat_pointed_whole (negative : Bool) (kept : List Char) (k : ℕ) :
    (pointed negative (kept ++ List.replicate k '0') ['0']).toFloat =
      (⟨negative, digitsValue kept, k⟩ : Decimal).toFloat := by
  have hsame : kept ++ List.replicate k '0' ++ ['0'] = kept ++ List.replicate (k + 1) '0' := by
    rw [List.replicate_succ', List.append_assoc]
  refine (toFloat_congr (k := k + 1) ?_ ?_ ?_).symm
  · rfl
  · rw [pointed, hsame]
    exact digitsValue_append_zeros kept (k + 1)
  · simp [pointed]

/-- A point may stand between two of the digits. -/
theorem isPointed_between {places : ℕ} (hdigits : isDigits kept) (hhead : kept.head? ≠ some '0')
    (hplaces : 0 < places) (hlt : places < kept.length) :
    IsPointed (kept.take (kept.length - places)) (kept.drop (kept.length - places)) := by
  obtain ⟨-, hall⟩ := isDigits_iff.1 hdigits
  refine ⟨isDigits_iff.2 ⟨?_, fun c hc => hall c (List.mem_of_mem_take hc)⟩,
    isDigits_iff.2 ⟨?_, fun c hc => hall c (List.mem_of_mem_drop hc)⟩, fun hzero => ?_⟩
  · rw [← List.length_pos_iff, List.length_take]
    omega
  · rw [← List.length_pos_iff, List.length_drop]
    omega
  · rw [List.head?_take, if_neg (by omega)] at hzero
    exact absurd hzero hhead

theorem pointed_between (negative : Bool) {places : ℕ} (hle : places ≤ kept.length) :
    pointed negative (kept.take (kept.length - places)) (kept.drop (kept.length - places)) =
      ⟨negative, digitsValue kept, -places⟩ := by
  have hlength : (kept.drop (kept.length - places)).length = places := by
    rw [List.length_drop]
    omega
  rw [pointed, List.take_append_drop, hlength]

/-- A point before all digits has a zero before it, and may have more behind it. -/
theorem isPointed_before (hdigits : isDigits kept) (zeros : ℕ) :
    IsPointed ['0'] (List.replicate zeros '0' ++ kept) := by
  obtain ⟨hne, hall⟩ := isDigits_iff.1 hdigits
  exact ⟨rfl, isDigits_iff.2
    ⟨by simp [hne], List.forall_mem_append.2 ⟨isDigit_of_mem_replicate, hall⟩⟩, fun _ => rfl⟩

theorem pointed_before (negative : Bool) {places : ℕ} (hle : kept.length ≤ places) :
    pointed negative ['0'] (List.replicate (places - kept.length) '0' ++ kept) =
      ⟨negative, digitsValue kept, -places⟩ := by
  have hsame : ['0'] ++ (List.replicate (places - kept.length) '0' ++ kept) =
      List.replicate (places - kept.length + 1) '0' ++ kept := by
    rw [List.replicate_succ, List.singleton_append, List.cons_append]
  have hlength : (List.replicate (places - kept.length) '0' ++ kept).length = places := by
    rw [List.length_append, List.length_replicate]
    omega
  rw [pointed, hsame, digitsValue_zeros_append, hlength]

/-- The positional form of a decimal, with a point added if there is none, shows a decimal that is
read as the same number. -/
theorem exists_pointed (hd : 0 < d.digits) :
    ∃ whole fraction, IsPointed whole fraction ∧
      (if (positional d).contains '.' then positional d else positional d ++ ['.', '0']) =
        whole ++ '.' :: fraction ∧
      (pointed d.negative whole fraction).toFloat = d.toFloat := by
  obtain ⟨kept, zeros, hends, hdigits, hhead, hvalue⟩ := exists_kept hd
  -- The decimal with its zeros counted by the exponent.
  have hplain : (⟨d.negative, digitsValue kept, d.exponent + zeros⟩ : Decimal).toFloat =
      d.toFloat :=
    toFloat_congr rfl hvalue rfl
  rw [← hplain]
  simp only [positional, hends]
  cases hexponent : d.exponent + zeros with
  | ofNat k =>
    have hall : ∀ c ∈ kept ++ List.replicate k '0', c.isDigit :=
      (isDigits_iff.1 (isPointed_whole hdigits hhead k).isDigits_whole).2
    exact ⟨kept ++ List.replicate k '0', ['0'], isPointed_whole hdigits hhead k,
      by simp [point_notMem hall], toFloat_pointed_whole d.negative kept k⟩
  | negSucc k =>
    by_cases hplaces : k + 1 < kept.length
    · refine ⟨kept.take (kept.length - (k + 1)), kept.drop (kept.length - (k + 1)),
        isPointed_between hdigits hhead k.succ_pos hplaces, by simp [hplaces], ?_⟩
      rw [pointed_between d.negative hplaces.le]
      rfl
    · refine ⟨['0'], List.replicate (k + 1 - kept.length) '0' ++ kept,
        isPointed_before hdigits _, by simp [hplaces], ?_⟩
      rw [pointed_before d.negative (not_lt.1 hplaces)]
      rfl

/-- A text with a minus before it, or without. -/
def signed (negative : Bool) (text : List Char) : List Char :=
  if negative then '-' :: text else text

theorem contains_signed (negative : Bool) (text : List Char) :
    (signed negative text).contains '.' = text.contains '.' := by
  cases negative <;> simp [signed]

theorem signed_append (negative : Bool) (text rest : List Char) :
    signed negative text ++ rest = signed negative (text ++ rest) := by
  cases negative <;> rfl

/-- A number with a minus before it is the opposite one. -/
theorem toFloat_pointed_true (whole fraction : List Char) :
    (pointed true whole fraction).toFloat = -(pointed false whole fraction).toFloat := by
  simp [toFloat, pointed]

theorem takeSign_signed {text : List Char} (h : isDigits (text.take 1)) (negative : Bool) :
    takeSign (signed negative text) = (negative, text) := by
  obtain ⟨hne, hall⟩ := isDigits_iff.1 h
  cases negative with
  | true => rfl
  | false =>
    obtain _ | ⟨c, rest⟩ := text
    · exact absurd rfl hne
    · have hc : c.isDigit := hall c (by simp)
      rw [signed, if_neg Bool.false_ne_true, takeSign]
      · rintro _ ⟨⟩
        cases hc
      · rintro _ ⟨⟩
        cases hc

end Decimal

namespace Toml

open Decimal

variable {digits whole fraction : List Char} {n : ℕ}

/-! ## Parts of numbers -/

theorem digitsOf_digits {afterDigit : Bool} (hall : ∀ c ∈ digits, c.isDigit)
    (hend : digits = [] → afterDigit) : digitsOf Char.isDigit afterDigit digits = some digits := by
  induction digits generalizing afterDigit with
  | nil => simp [digitsOf, hend rfl]
  | cons c digits ih =>
    rw [digitsOf, if_pos (hall c List.mem_cons_self),
      ih (fun c hc => hall c (List.mem_cons_of_mem _ hc)) fun _ => rfl]
    rfl

/-- A point is no part of digits. -/
theorem digitsOf_point (afterDigit : Bool) (before after : List Char) :
    digitsOf Char.isDigit afterDigit (before ++ '.' :: after) = none := by
  induction before generalizing afterDigit with
  | nil => rfl
  | cons c before ih =>
    rw [List.cons_append, digitsOf, ih, ih]
    split
    · rfl
    · split <;> rfl

theorem wholeDigits_digits (h : isDigits digits)
    (hzero : digits.head? = some '0' → digits.length = 1) : wholeDigits digits = some digits := by
  obtain ⟨hne, hall⟩ := isDigits_iff.1 h
  simp only [wholeDigits, digitsOf_digits hall fun hnil => absurd hnil hne]
  exact if_neg fun hneedless => hneedless.2 (hzero hneedless.1)

theorem cutAt_of_forall {p : Char → Bool} {text : List Char} (h : ∀ c ∈ text, ¬ p c) :
    cutAt p text = (text, none) := by
  have hbefore : (text.takeWhile fun c => !p c) = text :=
    List.takeWhile_eq_self_iff.2 fun c hc => by simpa using h c hc
  simp [cutAt, hbefore]

theorem cutAt_append {p : Char → Bool} {before : List Char} {c : Char} (after : List Char)
    (h : ∀ c ∈ before, ¬ p c) (hc : p c) :
    cutAt p (before ++ c :: after) = (before, some after) := by
  have hbefore : ((before ++ c :: after).takeWhile fun c => !p c) = before := by
    rw [List.takeWhile_append_of_pos fun c hc => by simpa using h c hc,
      List.takeWhile_cons_of_neg (by simpa using hc), List.append_nil]
  simp [cutAt, hbefore]

theorem takeChar_of_notMem {c : Char} {text : List Char} (h : c ∉ text) :
    takeChar c text = none := by
  obtain _ | ⟨d, rest⟩ := text
  · rfl
  · exact if_neg fun heq : c = d => h (heq ▸ List.mem_cons_self)

/-! ## Numerals -/

/-- A numeral: digits and points, and a minus only before them. -/
structure IsNumeral (word : List Char) : Prop where
  ne_nil : word ≠ []
  part : ∀ c ∈ word, c.isDigit ∨ c = '.' ∨ c = '-'
  minus : '-' ∉ word.tail

namespace IsNumeral

variable {word : List Char} (h : IsNumeral word)
include h

theorem notMem {c : Char} (hc : (c.isDigit || c == '.' || c == '-') = false) : c ∉ word := by
  intro hmem
  obtain ⟨⟨hdigit, hpoint⟩, hminus⟩ : (c.isDigit = false ∧ c ≠ '.') ∧ c ≠ '-' := by simpa using hc
  rcases h.part c hmem with hd | rfl | rfl
  · rw [hd] at hdigit
    cases hdigit
  · exact hpoint rfl
  · exact hminus rfl

theorem takeDate_eq : takeDate word = none := by
  have hrest : takeChar '-' (word.drop 4) = none :=
    takeChar_of_notMem fun hmem => h.minus (by
      rw [← List.drop_one]
      exact (List.drop_sublist_drop_left word (by decide)).subset hmem)
  simp only [takeDate, takeDigits]
  split
  · simp [hrest]
  · rfl

theorem takeTime_eq : takeTime word = none := by
  have hrest : takeChar ':' (word.drop 2) = none :=
    takeChar_of_notMem fun hmem => h.notMem (c := ':') rfl (List.mem_of_mem_drop hmem)
  simp only [takeTime, takeDigits]
  split
  · simp [hrest]
  · rfl

/-- A numeral is no date and no truth value. -/
theorem ofWord?_eq :
    ofWord? word = ((integer? word).map .integer).or ((float? word).map .float) := by
  have htrue : word ≠ "true".toList := by
    rintro rfl
    exact h.notMem (c := 't') rfl (by decide)
  have hfalse : word ≠ "false".toList := by
    rintro rfl
    exact h.notMem (c := 'f') rfl (by decide)
  have hdate : isDateTime word = false := by simp [isDateTime, h.takeDate_eq, h.takeTime_eq]
  rw [ofWord?, if_neg htrue, if_neg hfalse, hdate, if_neg Bool.false_ne_true]

/-- A numeral without a base before it is read as decimal digits. -/
theorem integer?_eq : integer? word =
    ((wholeDigits (takeSign word).2).map fun digits =>
      if (takeSign word).1 then -(digitsValue digits : ℤ) else digitsValue digits).bind fun n =>
        if fitsInteger n then some n else none := by
  unfold integer?
  split
  · exact absurd (by simp) (h.notMem (c := 'x') rfl)
  · exact absurd (by simp) (h.notMem (c := 'o') rfl)
  · exact absurd (by simp) (h.notMem (c := 'b') rfl)
  · rfl

end IsNumeral

/-! ## Numbers read back -/

/-- A word that is read as a value. -/
structure IsWordOf (word : List Char) (value : Value) : Prop where
  ne_nil : word ≠ []
  part : ∀ c ∈ word, isWordPart c
  read : ofWord? word = some value

/-- A word ends at the end of its line. -/
theorem IsWordOf.takeWord_eq {word : List Char} {value : Value} (h : IsWordOf word value)
    (rest : List Char) : takeWord (word ++ '\n' :: rest) = (word, '\n' :: rest) := by
  have hend : isWordPart '\n' = false := by decide
  simp [takeWord, List.takeWhile_append_of_pos h.part, List.dropWhile_append_of_pos h.part, hend]

theorem IsNumeral.isWordOf {word : List Char} {value : Value} (h : IsNumeral word)
    (hread : ofWord? word = some value) : IsWordOf word value := by
  refine ⟨h.ne_nil, fun c hc => ?_, hread⟩
  rcases h.part c hc with hdigit | rfl | rfl
  · simp [isWordPart, Char.isAlphanum, hdigit]
  · rfl
  · rfl

theorem isNumeral_toDigits (n : ℕ) : IsNumeral (Nat.toDigits 10 n) := by
  obtain ⟨hne, hall⟩ := isDigits_iff.1 (isDigits_toDigits n)
  refine ⟨hne, fun c hc => .inl (hall c hc), fun hminus => ?_⟩
  exact absurd (hall '-' (List.mem_of_mem_tail hminus)) (by decide)

theorem isNumeral_signed (h : IsPointed whole fraction) (negative : Bool) :
    IsNumeral (signed negative (whole ++ '.' :: fraction)) := by
  have hminus : '-' ∉ whole ++ '.' :: fraction := fun hmem =>
    absurd (h.part '-' hmem) (by decide)
  cases negative with
  | true =>
    exact ⟨List.cons_ne_nil _ _, List.forall_mem_cons.2 ⟨.inr (.inr rfl), fun c hc =>
      (h.part c hc).imp_right .inl⟩, hminus⟩
  | false =>
    exact ⟨by simp [signed], fun c hc => (h.part c hc).imp_right .inl,
      fun hmem => hminus (List.mem_of_mem_tail hmem)⟩

theorem isDigits_take_one (h : isDigits digits) (rest : List Char) :
    isDigits ((digits ++ rest).take 1) := by
  obtain ⟨hne, hall⟩ := isDigits_iff.1 h
  obtain _ | ⟨c, digits⟩ := digits
  · exact absurd rfl hne
  · exact isDigits_iff.2 ⟨by simp, by simpa using hall c List.mem_cons_self⟩

/-- An integer that a document can hold is read back. -/
theorem isWordOf_writeNat (hn : n ≤ Int64.maxValue.toInt) :
    IsWordOf (writeNat n) (.integer n) := by
  refine (isNumeral_toDigits n).isWordOf ?_
  have hdigits := isDigits_toDigits n
  have hsign : takeSign (Nat.toDigits 10 n) = (false, Nat.toDigits 10 n) := by
    have hfirst := isDigits_take_one hdigits []
    rw [List.append_nil] at hfirst
    exact takeSign_signed hfirst false
  have hzero : (Nat.toDigits 10 n).head? = some '0' → (Nat.toDigits 10 n).length = 1 := by
    obtain rfl | hpos := Nat.eq_zero_or_pos n
    · exact fun _ => rfl
    · exact fun hhead => absurd hhead (head?_toDigits hpos)
  have hfits : fitsInteger n := by
    have hmin : Int64.minValue.toInt ≤ (0 : ℤ) := by decide
    simp only [fitsInteger, Bool.and_eq_true, decide_eq_true_eq]
    omega
  rw [(isNumeral_toDigits n).ofWord?_eq, (isNumeral_toDigits n).integer?_eq, hsign,
    wholeDigits_digits hdigits hzero]
  simp [digitsValue_toDigits, hfits]

theorem decimal?_signed (h : IsPointed whole fraction) (negative : Bool) :
    decimal? (signed negative (whole ++ '.' :: fraction)) =
      some (pointed negative whole fraction) := by
  obtain ⟨-, hwhole⟩ := isDigits_iff.1 h.isDigits_whole
  obtain ⟨hne, hfraction⟩ := isDigits_iff.1 h.isDigits_fraction
  have hmark : ∀ c ∈ whole ++ '.' :: fraction, ¬ (c == 'e' || c == 'E') := fun c hc heq => by
    have hpart := h.part c hc
    obtain rfl | rfl : c = 'e' ∨ c = 'E' := by simpa using heq
    · exact absurd hpart (by decide)
    · exact absurd hpart (by decide)
  have hpoint : ∀ c ∈ whole, ¬ (c == '.') := fun c hc heq =>
    point_notMem hwhole (eq_of_beq heq ▸ hc)
  simp [decimal?, takeSign_signed (isDigits_take_one h.isDigits_whole _), cutAt_of_forall hmark,
    cutAt_append fraction hpoint, wholeDigits_digits h.isDigits_whole h.length_of_zero,
    digitsOf_digits hfraction fun hnil => absurd hnil hne, pointed]

/-- A number with a point is read back, unless it is too large. -/
theorem ofWord?_signed (h : IsPointed whole fraction) {negative : Bool}
    (hfinite : ((pointed negative whole fraction).toFloat == infinity) = false) :
    ofWord? (signed negative (whole ++ '.' :: fraction)) =
      some (.float (pointed negative whole fraction).toFloat) := by
  have hsign := takeSign_signed (isDigits_take_one h.isDigits_whole ('.' :: fraction)) negative
  have hdigits : wholeDigits (whole ++ '.' :: fraction) = none := by
    rw [wholeDigits, digitsOf_point]
    rfl
  have hname {name : List Char} (hpoint : '.' ∉ name) : whole ++ '.' :: fraction ≠ name := by
    rintro rfl
    exact hpoint (by simp)
  rw [(isNumeral_signed h negative).ofWord?_eq, (isNumeral_signed h negative).integer?_eq, hsign,
    hdigits]
  simp [float?, hsign, hname, decimal?_signed h, hfinite]

section Floats

open Float.Model Float.Model.UnpackedFloat

variable {x : Float} {m : ℕ} {e : ℤ} {hm : 0 < m} {sign : Sign}

/-- A finite number other than zero is shown by its shortest digits, behind its sign. -/
theorem render_finite (hx : x.toModel.unpack = .finite sign m e hm) :
    render x = signed (sign == .negative) (positional (shortest x.abs)) := by
  have hzero : (x == 0.0) = false := by
    have hmodel : (x == 0.0) = x.toModel.unpack.beq (0.0 : Float).toModel.unpack := rfl
    rw [hmodel, hx, unpack_zero]
    cases sign <;> rfl
  have hsign : x.toBits < 0x8000000000000000 ↔ sign.toBitVec = 0#1 := by
    rw [toBits_lt_iff, (fields_of_unpack hx).1, Sign.toBitVec_ofBitVec]
  simp only [render, isNaN_of_finite hx, isInf_of_finite hx, hzero, Bool.false_eq_true, if_false,
    hsign]
  cases sign <;> rfl

/-- What is written for a finite number other than zero is a number with a point that is read as the
number. -/
theorem exists_writeFloat (hx : x.toModel.unpack = .finite sign m e hm) :
    ∃ negative whole fraction, IsPointed whole fraction ∧
      writeFloat x = signed negative (whole ++ '.' :: fraction) ∧
      (pointed negative whole fraction).toFloat = x := by
  obtain ⟨whole, fraction, hpointed, hshown, hread⟩ :=
    exists_pointed (digits_shortest_pos (unpack_abs hx))
  rw [negative_shortest, toFloat_shortest (unpack_abs hx)] at hread
  refine ⟨sign == .negative, whole, fraction, hpointed, ?_, ?_⟩
  · rw [writeFloat, isNaN_of_finite hx, isInf_of_finite hx, render_finite hx, ← hshown]
    simp only [Bool.false_eq_true, if_false, Bool.false_or, contains_signed, signed_append]
    split <;> rfl
  · cases sign with
    | positive =>
      exact hread.trans (eq_of_unpack ((unpack_abs hx).trans hx.symm))
    | negative =>
      refine (toFloat_pointed_true whole fraction).trans ?_
      rw [hread]
      exact eq_of_unpack ((unpack_neg (unpack_abs hx)).trans hx.symm)

/-- Every number but NaN is read back. -/
theorem isWordOf_writeFloat (hx : x.isNaN = false) : IsWordOf (writeFloat x) (.float x) := by
  cases hunpack : x.toModel.unpack with
  | notANumber =>
    have hmodel : x.isNaN = x.toModel.unpack.isNaN := rfl
    rw [hmodel, hunpack] at hx
    cases hx
  | infinity sign =>
    cases sign with
    | positive =>
      obtain rfl : x = Decimal.infinity := eq_of_unpack (hunpack.trans unpack_infinity.symm)
      have hshown : writeFloat Decimal.infinity = "inf".toList := by decide +kernel
      rw [hshown]
      exact ⟨by decide, List.all_eq_true.1 rfl, rfl⟩
    | negative =>
      obtain rfl : x = -Decimal.infinity :=
        eq_of_unpack (hunpack.trans unpack_neg_infinity.symm)
      have hshown : writeFloat (-Decimal.infinity) = "-inf".toList := by decide +kernel
      rw [hshown]
      exact ⟨by decide, List.all_eq_true.1 rfl, rfl⟩
  | zero sign =>
    cases sign with
    | positive =>
      obtain rfl : x = 0.0 := eq_of_unpack (hunpack.trans unpack_zero.symm)
      have hshown : writeFloat 0.0 = "0.0".toList := by decide +kernel
      rw [hshown]
      exact ⟨by decide, List.all_eq_true.1 rfl, rfl⟩
    | negative =>
      obtain rfl : x = -0.0 := eq_of_unpack (hunpack.trans unpack_neg_zero.symm)
      have hshown : writeFloat (-0.0) = "-0.0".toList := by decide +kernel
      rw [hshown]
      exact ⟨by decide, List.all_eq_true.1 rfl, rfl⟩
  | finite sign m e hm =>
    obtain ⟨negative, whole, fraction, hpointed, hshown, hread⟩ := exists_writeFloat hunpack
    have hfinite : ((pointed negative whole fraction).toFloat == Decimal.infinity) = false := by
      rw [hread]
      exact beq_infinity hunpack
    rw [hshown]
    refine (isNumeral_signed hpointed negative).isWordOf ?_
    rw [ofWord?_signed hpointed hfinite, hread]

end Floats

end Toml

end AttackSurface
