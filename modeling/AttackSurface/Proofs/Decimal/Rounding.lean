import AttackSurface.Decimal.Basic
import Mathlib

/-! Rounding to a floating-point number. A rounding starts from a mantissa that was cut off
somewhere, and from what is known of the rest. Both are functions of the exact number, so that the
result is one as well: neither the scale nor the way in which the number was computed matters. -/
namespace AttackSurface.Decimal

open Float.Model Float.Model.UnpackedFloat

variable {x : ℚ} {m n : ℕ} {e f : ℤ} {sign other : Sign}

/-! ## Numbers that are cut off -/

/-- The whole part of a number, the first binary digit after the point, and whether there are
others. -/
def cutOff (x : ℚ) : ExtendedMantissa where
  mantissa := ⌊x⌋₊
  roundBit := 1 / 2 ≤ Int.fract x
  stickyBit := Int.fract x ≠ 0 ∧ Int.fract x ≠ 1 / 2

theorem cutOff_eq {f : ℚ} (hx : x = m + f) (h : 0 ≤ f) (hlt : f < 1) :
    cutOff x = ⟨m, 1 / 2 ≤ f, f ≠ 0 ∧ f ≠ 1 / 2⟩ := by
  have hfloor : ⌊x⌋₊ = m := by
    apply (Nat.floor_eq_iff (by rw [hx]; positivity)).2
    constructor <;> linarith
  have hfract : Int.fract x = f := by
    rw [hx, Int.fract_natCast_add]
    exact Int.fract_eq_self.2 ⟨h, hlt⟩
  simp only [cutOff, hfloor, hfract]

/-- A shift by one digit keeps what the bits tell: the digit that is dropped from the mantissa comes
to stand right after the point. -/
theorem shiftRightOne_cutOff (hx : 0 ≤ x) : (cutOff x).shiftRightOne = cutOff (x / 2) := by
  obtain ⟨m, f, hsum, hf, hlt⟩ : ∃ (m : ℕ) (f : ℚ), x = m + f ∧ 0 ≤ f ∧ f < 1 := by
    refine ⟨⌊x⌋₊, Int.fract x, ?_, Int.fract_nonneg x, Int.fract_lt_one x⟩
    rw [natCast_floor_eq_intCast_floor hx, Int.floor_add_fract]
  have hdigits : (m : ℚ) = 2 * (m / 2 : ℕ) + (m % 2 : ℕ) := by
    exact_mod_cast (Nat.div_add_mod m 2).symm
  have hhalf : x / 2 = (m / 2 : ℕ) + ((m % 2 : ℕ) + f) / 2 := by
    rw [hsum, hdigits]
    ring
  have hm : m % 2 = 0 ∨ m % 2 = 1 := Nat.mod_two_eq_zero_or_one m
  have hcarry : ((m % 2 : ℕ) : ℚ) ≤ 1 := by exact_mod_cast Nat.lt_succ_iff.1 (Nat.mod_lt m two_pos)
  rw [cutOff_eq hsum hf hlt, cutOff_eq hhalf (by positivity) (by linarith)]
  simp only [ExtendedMantissa.shiftRightOne, ExtendedMantissa.mk.injEq, true_and]
  constructor
  · rw [Bool.eq_iff_iff, bne_iff_ne, decide_eq_true_eq]
    rcases hm with hm | hm
    all_goals
      rw [hm]
      push_cast
      grind
  · rw [Bool.eq_iff_iff, Bool.or_eq_true, decide_eq_true_eq, decide_eq_true_eq, decide_eq_true_eq]
    rcases hm with hm | hm
    all_goals
      rw [hm]
      push_cast
      grind

theorem shiftRight_cutOff (hx : 0 ≤ x) (n : ℕ) : cutOff x >>> n = cutOff (x / 2 ^ n) := by
  change n.repeat ExtendedMantissa.shiftRightOne (cutOff x) = _
  induction n with
  | zero => simp [Nat.repeat]
  | succ n ih =>
    rw [Nat.repeat, ih, shiftRightOne_cutOff (by positivity), pow_succ, div_div]

theorem cutOff_natCast (m : ℕ) :
    ExtendedMantissa.ofMantissaAndAccuracy m .exact = cutOff m := by
  rw [cutOff_eq (add_zero (m : ℚ)).symm le_rfl one_pos]
  simp [ExtendedMantissa.ofMantissaAndAccuracy]

/-- A division by the whole tells of the quotient what its bits tell. -/
theorem cutOff_div (hn : 0 < n) (m : ℕ) :
    ExtendedMantissa.ofMantissaAndAccuracy (m / n) (accuracyOfFraction (m % n) n) =
      cutOff (m / n) := by
  have hn' : (0 : ℚ) < n := by exact_mod_cast hn
  have hsum : (m : ℚ) / n = (m / n : ℕ) + (m % n : ℕ) / n := by
    have hm : (m : ℚ) = n * (m / n : ℕ) + (m % n : ℕ) := by exact_mod_cast (Nat.div_add_mod m n).symm
    rw [div_eq_iff hn'.ne', add_mul, div_mul_cancel₀ _ hn'.ne', mul_comm]
    exact hm
  have hlt : ((m % n : ℕ) : ℚ) / n < 1 := by
    rw [div_lt_one hn']
    exact_mod_cast Nat.mod_lt m hn
  rw [cutOff_eq hsum (by positivity) hlt]
  have hhalf : 1 / 2 ≤ ((m % n : ℕ) : ℚ) / n ↔ n ≤ 2 * (m % n) := by
    rw [div_le_div_iff₀ two_pos hn', one_mul, mul_comm]
    exact_mod_cast Iff.rfl
  have hequal : ((m % n : ℕ) : ℚ) / n = 1 / 2 ↔ n = 2 * (m % n) := by
    rw [div_eq_div_iff hn'.ne' two_ne_zero, one_mul, mul_comm, eq_comm]
    exact_mod_cast Iff.rfl
  have hzero : ((m % n : ℕ) : ℚ) / n = 0 ↔ m % n = 0 := by
    rw [div_eq_zero_iff, or_iff_left hn'.ne']
    exact_mod_cast Iff.rfl
  simp only [hhalf, Ne, hequal, hzero]
  unfold accuracyOfFraction
  split
  case isTrue h => simp [h, ExtendedMantissa.ofMantissaAndAccuracy, hn.ne']
  case isFalse h =>
    cases hcompare : compare (2 * (m % n)) n with
    | lt =>
      have hlt := Nat.compare_eq_lt.1 hcompare
      simp [ExtendedMantissa.ofMantissaAndAccuracy, h, hlt, hlt.ne']
    | eq =>
      have heq := Nat.compare_eq_eq.1 hcompare
      simp [ExtendedMantissa.ofMantissaAndAccuracy, heq]
    | gt =>
      have hgt := Nat.compare_eq_gt.1 hcompare
      simp [ExtendedMantissa.ofMantissaAndAccuracy, h, hgt.le, hgt.ne]

/-! ## Scales -/

/-- The exponent of the last binary digit that is kept. -/
def scale (x : ℚ) : ℤ := Format.binary64.targetExponent (Int.log 2 x + 1)

theorem targetExponent_eq (e : ℤ) : Format.binary64.targetExponent e = max (e - 53) (-1074) := rfl

theorem scale_eq (x : ℚ) : scale x = max (Int.log 2 x - 52) (-1074) := by
  rw [scale, targetExponent_eq]
  congr 1
  omega

theorem log_div_zpow (hx : 0 < x) (e : ℤ) : Int.log 2 (x / 2 ^ e) = Int.log 2 x - e := by
  have hdiv : 0 < x / 2 ^ e := by positivity
  have hle (k : ℤ) : k ≤ Int.log 2 (x / 2 ^ e) ↔ k ≤ Int.log 2 x - e := by
    have hpower : ((2 : ℕ) : ℚ) ^ k ≤ x / 2 ^ e ↔ ((2 : ℕ) : ℚ) ^ (k + e) ≤ x := by
      push_cast
      rw [le_div_iff₀ (by positivity), zpow_add₀ two_ne_zero]
    rw [← Int.zpow_le_iff_le_log one_lt_two hdiv, hpower, Int.zpow_le_iff_le_log one_lt_two hx]
    omega
  exact le_antisymm ((hle _).1 le_rfl) ((hle _).2 le_rfl)

/-- A mantissa with enough digits tells the scale. -/
theorem targetExponent_cutOff (hx : 0 < x) (he : e ≤ scale x) :
    Format.binary64.targetExponent (totalExponent (cutOff (x / 2 ^ e)).mantissa e) = scale x := by
  have hmantissa : (cutOff (x / 2 ^ e)).mantissa = ⌊x / 2 ^ e⌋₊ := rfl
  have hlog := log_div_zpow hx e
  rw [scale_eq] at he ⊢
  rw [targetExponent_eq, totalExponent, hmantissa]
  by_cases hone : 1 ≤ x / 2 ^ e
  · rw [Int.log_of_one_le_right 2 hone, ← Nat.log2_eq_log_two] at hlog
    omega
  · -- All digits are cut off, so that the number is below the least scale.
    have hsmall : Int.log 2 (x / 2 ^ e) < 0 := by
      rw [← Int.lt_zpow_iff_log_lt one_lt_two (by positivity)]
      simpa using hone
    rw [Nat.floor_eq_zero.2 (not_le.1 hone), Nat.log2_zero]
    omega

/-! ## Rounding -/

/-- The floating-point number next to a positive number, of two the one with the even mantissa, in
the form in which it is packed. -/
def rounded (sign : Sign) (x : ℚ) : UnpackedFloat :=
  let (final, exponent) := shiftToTargetExponent Format.binary64
    (cutOff (x / 2 ^ scale x)).roundedMantissa (scale x) .exact
  if h : final.mantissa = 0 then .zero sign
  else .finite sign final.mantissa exponent (Nat.pos_of_ne_zero h)

theorem mantissa_ofMantissaAndAccuracy (m : ℕ) (accuracy : Accuracy) :
    (ExtendedMantissa.ofMantissaAndAccuracy m accuracy).mantissa = m := by
  unfold ExtendedMantissa.ofMantissaAndAccuracy
  split <;> rfl

theorem shiftToTargetExponent_cutOff (hx : 0 < x) (he : e ≤ scale x) {accuracy : Accuracy}
    (h : ExtendedMantissa.ofMantissaAndAccuracy m accuracy = cutOff (x / 2 ^ e)) :
    shiftToTargetExponent Format.binary64 m e accuracy =
      (cutOff (x / 2 ^ scale x), scale x) := by
  have hm : m = (cutOff (x / 2 ^ e)).mantissa := h ▸ (mantissa_ofMantissaAndAccuracy ..).symm
  have hshift : ((scale x - e).toNat : ℤ) = scale x - e := Int.toNat_of_nonneg (by omega)
  simp only [shiftToTargetExponent, shiftToExponent, h]
  rw [hm, targetExponent_cutOff hx he, shiftRight_cutOff (by positivity), div_div,
    ← zpow_natCast, ← zpow_add₀ two_ne_zero, hshift, add_sub_cancel]

/-- A rounding depends on the exact number alone, if no digit that counts was cut off before. -/
theorem roundWithAccuracy_eq (hx : 0 < x) (he : e ≤ scale x) {accuracy : Accuracy}
    (h : ExtendedMantissa.ofMantissaAndAccuracy m accuracy = cutOff (x / 2 ^ e)) :
    roundWithAccuracy Format.binary64 sign m e accuracy = rounded sign x := by
  unfold roundWithAccuracy rounded
  rw [shiftToTargetExponent_cutOff hx he h]

/-- A mantissa and exponent in the form in which they are packed. -/
def IsPackable (m : ℕ) (e : ℤ) : Prop :=
  Format.binary64.targetExponent (totalExponent m e) = e

theorem scale_mul_zpow (hm : 0 < m) (e : ℤ) :
    scale (m * 2 ^ e) = Format.binary64.targetExponent (totalExponent m e) := by
  have hpositive : (0 : ℚ) < m * 2 ^ e := by positivity
  have hlog := log_div_zpow hpositive e
  rw [mul_div_cancel_right₀ _ (by positivity), Int.log_natCast, ← Nat.log2_eq_log_two] at hlog
  rw [scale, totalExponent]
  congr 1
  omega

/-- A number that is a floating-point number is rounded to itself. -/
theorem rounded_of_isPackable (hm : 0 < m) (h : IsPackable m e) :
    rounded sign (m * 2 ^ e) = .finite sign m e hm := by
  have hscale : scale (m * 2 ^ e) = e := (scale_mul_zpow hm e).trans h
  have hcutOff : cutOff (m * 2 ^ e / 2 ^ e) = ⟨m, false, false⟩ := by
    rw [mul_div_cancel_right₀ _ (by positivity), ← cutOff_natCast]
    rfl
  have hshift : shiftToTargetExponent Format.binary64 m e .exact = (⟨m, false, false⟩, e) := by
    rw [shiftToTargetExponent_cutOff (x := m * 2 ^ e) (by positivity) hscale.ge, hscale, hcutOff]
    exact hcutOff.symm
  have hrounded : (⟨m, false, false⟩ : ExtendedMantissa).roundedMantissa = m := rfl
  simp only [rounded, hscale, hcutOff, hrounded, hshift, dif_neg hm.ne']

/-! ## Natural numbers, products and quotients -/

theorem round_eq_rounded (hm : 0 < m) (e : ℤ) :
    UnpackedFloat.round Format.binary64 sign m e = rounded sign (m * 2 ^ e) := by
  have hscale := scale_mul_zpow hm e
  simp only [UnpackedFloat.round, decreaseExponent, ← hscale]
  generalize hshift : (e - scale (m * 2 ^ e)).toNat = shift
  refine roundWithAccuracy_eq (by positivity) (by omega) ?_
  rw [cutOff_natCast, Nat.shiftLeft_eq, zpow_sub₀ two_ne_zero, zpow_natCast]
  congr 1
  push_cast
  field_simp

theorem le_scale {k : ℤ} (hx : 0 < x) (h : (2 : ℚ) ^ (k + 52) ≤ x) : k ≤ scale x := by
  have hlog := (Int.zpow_le_iff_le_log (R := ℚ) one_lt_two hx).1 (by exact_mod_cast h)
  rw [scale_eq]
  omega

/-- A product of which one factor has all its digits. -/
theorem mul_eq_rounded (hm : 2 ^ 52 ≤ m) (hm' : 0 < m) (hn : 0 < n) :
    UnpackedFloat.mul Format.binary64 (.finite sign m e hm') (.finite other n f hn) =
      rounded (sign * other) (m * 2 ^ e * (n * 2 ^ f)) := by
  have hproduct : (m : ℚ) * 2 ^ e * (n * 2 ^ f) = (m * n : ℕ) * 2 ^ (e + f) := by
    rw [zpow_add₀ two_ne_zero]
    push_cast
    ring
  have hdigits : (2 : ℚ) ^ (52 : ℤ) ≤ (m * n : ℕ) := by
    exact_mod_cast hm.trans (Nat.le_mul_of_pos_right m hn)
  have hpositive : (0 : ℚ) < (m * n : ℕ) * 2 ^ (e + f) := by positivity
  rw [hproduct, UnpackedFloat.mul]
  refine roundWithAccuracy_eq hpositive (le_scale hpositive ?_) ?_
  · rw [zpow_add₀ two_ne_zero, mul_comm]
    gcongr
  · rw [mul_div_cancel_right₀ _ (by positivity), cutOff_natCast]

theorem lt_two_zpow_log2 (n : ℕ) : (n : ℚ) < 2 ^ ((n.log2 : ℤ) + 1) := by
  exact_mod_cast Nat.lt_log2_self (n := n)

theorem two_zpow_log2_le (hm : 0 < m) : (2 : ℚ) ^ (m.log2 : ℤ) ≤ m := by
  exact_mod_cast Nat.log2_self_le hm.ne'

/-- A quotient. Enough digits are computed of it, since it has one less at most than the lengths of
the two numbers tell. -/
theorem div_eq_rounded (hm : 0 < m) (hn : 0 < n) :
    UnpackedFloat.div Format.binary64 (.finite sign m e hm) (.finite other n f hn) =
      rounded (sign / other) (m * 2 ^ e / (n * 2 ^ f)) := by
  have hpositive : (0 : ℚ) < m * 2 ^ e / (n * 2 ^ f) := by positivity
  have hlog : (m.log2 : ℤ) - n.log2 - 1 + e - f ≤ Int.log 2 ((m : ℚ) * 2 ^ e / (n * 2 ^ f)) := by
    rw [← Int.zpow_le_iff_le_log one_lt_two hpositive, Nat.cast_ofNat, le_div_iff₀ (by positivity)]
    calc (2 : ℚ) ^ ((m.log2 : ℤ) - n.log2 - 1 + e - f) * (n * 2 ^ f)
      _ ≤ 2 ^ ((m.log2 : ℤ) - n.log2 - 1 + e - f) * (2 ^ ((n.log2 : ℤ) + 1) * 2 ^ f) := by
        gcongr
        exact (lt_two_zpow_log2 n).le
      _ = 2 ^ (m.log2 : ℤ) * 2 ^ e := by
        simp only [← zpow_add₀ (two_ne_zero (α := ℚ))]
        congr 1
        omega
      _ ≤ m * 2 ^ e := by
        gcongr
        exact two_zpow_log2_le hm
  simp only [UnpackedFloat.div, divCore]
  generalize htarget : min (e - f) _ = target
  have hle : target ≤ scale (m * 2 ^ e / (n * 2 ^ f)) := by
    rw [← htarget, scale_eq, targetExponent_eq, totalExponent, totalExponent]
    omega
  have hshift : ((e - f - target).toNat : ℤ) = e - f - target := Int.toNat_of_nonneg (by omega)
  refine roundWithAccuracy_eq hpositive hle ?_
  have hscaled : ((m <<< (e - f - target).toNat : ℕ) : ℚ) = m * 2 ^ (e - f - target) := by
    rw [Nat.shiftLeft_eq, Nat.cast_mul, Nat.cast_pow, Nat.cast_ofNat, ← zpow_natCast, hshift]
  rw [cutOff_div hn, hscaled, zpow_sub₀ two_ne_zero, zpow_sub₀ two_ne_zero]
  congr 1
  field_simp

end AttackSurface.Decimal
