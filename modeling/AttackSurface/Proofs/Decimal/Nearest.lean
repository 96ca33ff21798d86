import AttackSurface.Proofs.Decimal.Packing

/-! The floating-point number nearest to a decimal. It depends on the size of the decimal alone,
not on how digits and exponent share it, and a decimal that is exactly a floating-point number gives
that number back. So the fewest digits that read back are digits that do. -/
namespace AttackSurface.Decimal

open Float.Model Float.Model.UnpackedFloat

variable {m n : ℕ} {e : ℤ} {x : Float}

/-- The floating-point number nearest to a positive number. -/
def nearest (x : ℚ) : Float := .ofModel (.pack (rounded .positive x))

/-! ## Exact factors -/

theorem isStored_shiftLeft (hm : 0 < m) (hlt : m < 2 ^ 53) :
    IsStored (m <<< (52 - m.log2)) (-(52 - m.log2 : ℕ)) := by
  have hlog : m.log2 < 53 := (Nat.log2_lt hm.ne').2 hlt
  have hle := Nat.log2_self_le hm.ne'
  have hupper := Nat.lt_log2_self (n := m)
  have hfull : 2 ^ 52 ≤ m <<< (52 - m.log2) := by
    calc 2 ^ 52 = 2 ^ m.log2 * 2 ^ (52 - m.log2) := by rw [← pow_add]; congr 1; omega
      _ ≤ m <<< (52 - m.log2) := by rw [Nat.shiftLeft_eq]; gcongr
  have hlength : m <<< (52 - m.log2) < 2 ^ 53 := by
    calc m <<< (52 - m.log2) < 2 ^ (m.log2 + 1) * 2 ^ (52 - m.log2) := by
          rw [Nat.shiftLeft_eq]; gcongr
      _ = 2 ^ 53 := by rw [← pow_add]; congr 1; omega
  exact ⟨hlength, by omega, .inl ⟨hfull, by omega⟩⟩

/-- Natural numbers of up to 53 digits are floating-point numbers. -/
theorem exists_unpack_toFloat (hm : 0 < m) (hlt : m < 2 ^ 53) :
    ∃ n q, ∃ hn : 0 < n, m.toUInt64.toFloat.toModel.unpack = .finite .positive n q hn ∧
      2 ^ 52 ≤ n ∧ (n : ℚ) * 2 ^ q = m := by
  have hstored := isStored_shiftLeft hm hlt
  have hn : 0 < m <<< (52 - m.log2) := by simpa using hm
  have hexact : ((m <<< (52 - m.log2) : ℕ) : ℚ) * 2 ^ (-(52 - m.log2 : ℕ) : ℤ) = m := by
    rw [Nat.shiftLeft_eq, Nat.cast_mul, Nat.cast_pow, Nat.cast_ofNat, zpow_neg, zpow_natCast,
      mul_assoc, mul_inv_cancel₀ (by positivity), mul_one]
  have hround : UnpackedFloat.ofUInt64 Format.binary64 m.toUInt64 =
      .finite .positive (m <<< (52 - m.log2)) (-(52 - m.log2 : ℕ)) hn := by
    have hsize : UInt64.size = 2 ^ 64 := rfl
    have hnat : m.toUInt64.toNat = m := UInt64.toNat_ofNat_of_lt' (by omega)
    rw [UnpackedFloat.ofUInt64, hnat, UnpackedFloat.ofNat, UnpackedFloat.ofInt,
      UnpackedFloat.normalize, Int.compare_eq_gt.2 (by omega)]
    simp only [Int.toNat_natCast]
    rw [round_eq_rounded hm, zpow_zero, mul_one, ← hexact,
      rounded_of_isPackable hn (hstored.isPackable hn)]
  refine ⟨_, _, hn, ?_, ?_, hexact⟩
  · have hmodel : m.toUInt64.toFloat.toModel =
        Float.Model.pack (UnpackedFloat.ofUInt64 Format.binary64 m.toUInt64) := rfl
    rw [hmodel, hround, unpack_model_pack hstored]
  · rcases hstored.full with hfull | ⟨-, he⟩
    · exact hfull.1
    · omega

/-- The power of ten is the number, compared without fractions. -/
def isPowerOfTen (k : ℕ) : UnpackedFloat → Bool
  | .finite .positive m q _ => m * 2 ^ q.toNat = 10 ^ k * 2 ^ (-q).toNat
  | _ => false

theorem isPowerOfTen_table (k : Fin Float.exactlyRepresentablePowersOfTen.size) :
    isPowerOfTen k Float.exactlyRepresentablePowersOfTen[k].toModel.unpack := by
  revert k
  decide +kernel

theorem exists_unpack_powerOfTen {k : ℕ} (hk : k < Float.exactlyRepresentablePowersOfTen.size) :
    ∃ n q, ∃ hn : 0 < n, Float.exactlyRepresentablePowersOfTen[k].toModel.unpack =
      .finite .positive n q hn ∧ (n : ℚ) * 2 ^ q = 10 ^ k := by
  have htable := isPowerOfTen_table ⟨k, hk⟩
  unfold isPowerOfTen at htable
  split at htable
  · rename_i n q hn hx
    refine ⟨n, q, hn, hx, ?_⟩
    have hexact : (n : ℚ) * 2 ^ q.toNat = 10 ^ k * 2 ^ (-q).toNat := by
      exact_mod_cast of_decide_eq_true htable
    have hq : q = q.toNat - (-q).toNat := by omega
    rw [hq, zpow_sub₀ two_ne_zero, zpow_natCast, zpow_natCast, ← mul_div_assoc, hexact,
      mul_div_cancel_right₀ _ (by positivity)]
  · cases htable

/-! ## Decimals by their size -/

/-- Factors that are floating-point numbers themselves are multiplied or divided as such. -/
theorem ofScientific_of_small (hm : 0 < m) (hlt : m < 2 ^ 53) {k : ℕ} (hk : k ≤ 22) (down : Bool) :
    Float.ofScientific m down k =
      nearest (if down then (m : ℚ) / 10 ^ k else m * 10 ^ k) := by
  obtain ⟨a, p, ha, hx, hfull, hxm⟩ := exists_unpack_toFloat hm hlt
  obtain ⟨b, q, hb, hy, hyk⟩ := exists_unpack_powerOfTen (k := k) (Nat.lt_succ_of_le hk)
  unfold Float.ofScientific
  rw [dif_pos ⟨hlt, hk⟩, ← hxm, ← hyk]
  cases down with
  | false =>
    have hmul : UnpackedFloat.mul Format.binary64 (.finite .positive a p ha)
        (.finite .positive b q hb) = rounded .positive (a * 2 ^ p * (b * 2 ^ q)) :=
      mul_eq_rounded hfull ha hb
    rw [← hx, ← hy] at hmul
    exact congrArg (fun u => Float.ofModel (.pack u)) hmul
  | true =>
    have hdiv : UnpackedFloat.div Format.binary64 (.finite .positive a p ha)
        (.finite .positive b q hb) = rounded .positive (a * 2 ^ p / (b * 2 ^ q)) :=
      div_eq_rounded ha hb
    rw [← hx, ← hy] at hdiv
    exact congrArg (fun u => Float.ofModel (.pack u)) hdiv

/-- All others are multiplied or divided as they are. -/
theorem ofScientific_eq_rounded (hm : 0 < m) (hhigh : e ≤ 2048)
    (hlow : -(2048 + (m.log2 : ℤ)) ≤ e) :
    UnpackedFloat.ofScientific Format.binary64 m e = rounded .positive (m * 10 ^ e) := by
  have hpower : (2 : ℤ) ^ Format.binary64.exponentBits = 2048 := rfl
  simp only [UnpackedFloat.ofScientific, hpower]
  rw [dif_neg hm.ne', if_neg (by omega), if_neg (by omega)]
  split
  case isTrue he =>
    obtain ⟨k, rfl⟩ := Int.eq_ofNat_of_zero_le he
    have hfull : 2 ^ 52 ≤ m <<< Format.binary64.mantissaBits := by
      have hbits : Format.binary64.mantissaBits = 53 := rfl
      rw [hbits, Nat.shiftLeft_eq]
      omega
    rw [mul_eq_rounded hfull, Int.toNat_natCast]
    congr 1
    rw [zpow_zero, mul_one, Nat.cast_pow, Nat.cast_ofNat, zpow_natCast, Nat.shiftLeft_eq,
      Nat.cast_mul, Nat.cast_pow, Nat.cast_ofNat, zpow_neg, zpow_natCast,
      mul_inv_cancel_right₀ (by positivity)]
  case isFalse he =>
    obtain ⟨k, rfl⟩ : ∃ k : ℕ, e = -k := ⟨(-e).toNat, by omega⟩
    rw [div_eq_rounded, neg_neg, Int.toNat_natCast]
    congr 1
    rw [zpow_neg, zpow_natCast, zpow_zero, mul_one, mul_one, Nat.cast_pow, Nat.cast_ofNat,
      div_eq_mul_inv]

/-- A decimal that is not out of all bounds is rounded once. -/
theorem ofScientific_eq (hm : 0 < m) (hhigh : e ≤ 2048) (hlow : -(2048 + (m.log2 : ℤ)) ≤ e) :
    Float.ofScientific m (e < 0) e.natAbs = nearest (m * 10 ^ e) := by
  by_cases hsmall : m < 2 ^ 53 ∧ e.natAbs ≤ 22
  · rw [ofScientific_of_small hm hsmall.1 hsmall.2]
    congr 1
    by_cases he : e < 0
    · rw [if_pos (decide_eq_true he), ← zpow_natCast, Int.ofNat_natAbs_of_nonpos he.le, zpow_neg,
        div_inv_eq_mul]
    · rw [if_neg (by simpa using he), ← zpow_natCast, Int.natAbs_of_nonneg (not_lt.1 he)]
  · have hsigned : (if decide (e < 0) then Int.negOfNat e.natAbs else Int.ofNat e.natAbs) = e := by
      by_cases he : e < 0
      · rw [if_pos (decide_eq_true he), Int.negOfNat_eq, Int.ofNat_eq_natCast]
        omega
      · rw [if_neg (by simpa using he), Int.ofNat_eq_natCast]
        omega
    simp only [Float.ofScientific, dif_neg hsmall, hsigned, Float.Model.ofScientific,
      ofScientific_eq_rounded hm hhigh hlow]
    rfl

/-! ## Digits -/

theorem toDigits_mul_pow (hn : 0 < n) (k : ℕ) :
    Nat.toDigits 10 (n * 10 ^ k) = Nat.toDigits 10 n ++ List.replicate k '0' := by
  induction k with
  | zero => simp
  | succ k ih =>
    have hpositive : 0 < n * 10 ^ k := by positivity
    have happend := Nat.toDigits_append_toDigits (b := 10) (d := 0) (by decide) hpositive (by decide)
    rw [List.replicate_succ', ← List.append_assoc, ← ih, pow_succ, ← mul_assoc, mul_comm _ 10]
    exact happend.symm

theorem digitCount_mul_pow (hn : 0 < n) (k : ℕ) : digitCount (n * 10 ^ k) = digitCount n + k := by
  rw [digitCount, digitCount, toDigits_mul_pow hn, List.length_append, List.length_replicate]

theorem digitCount_pos (n : ℕ) : 0 < digitCount n := Nat.length_toDigits_pos

theorem lt_pow_digitCount (n : ℕ) : n < 10 ^ digitCount n :=
  (Nat.length_toDigits_le_iff (by decide) (digitCount_pos n)).1 le_rfl

theorem pow_le_of_digitCount (hn : 0 < n) : 10 ^ (digitCount n - 1) ≤ n := by
  by_contra hlt
  rcases Nat.eq_zero_or_pos (digitCount n - 1) with hone | hmore
  · rw [hone] at hlt
    omega
  · have hle := (Nat.length_toDigits_le_iff (b := 10) (by decide) hmore).2 (not_le.1 hlt)
    have hcount : (Nat.toDigits 10 n).length = digitCount n := rfl
    omega

theorem digitCount_le_log2 (n : ℕ) : digitCount n ≤ n.log2 + 1 := by
  rw [digitCount, Nat.length_toDigits_le_iff (by decide) (Nat.succ_pos _)]
  exact Nat.lt_log2_self.trans_le (Nat.pow_le_pow_left (by decide) _)

/-! ## Sizes -/

variable {d y : Decimal}

def magnitude (d : Decimal) : ℚ := d.digits * 10 ^ d.exponent

/-- The number of digits before the point, or minus that of zeros after it. -/
def size (d : Decimal) : ℤ := digitCount d.digits + d.exponent

/-- What a decimal is read as tells nothing else of it than its sign and how large it is. -/
theorem toFloat_eq (hd : 0 < d.digits) :
    d.toFloat =
      let absolute := if 310 < d.size then infinity else if d.size < -330 then 0.0
        else nearest d.magnitude
      if d.negative then -absolute else absolute := by
  have hlog := digitCount_le_log2 d.digits
  have hpos := digitCount_pos d.digits
  have hsize : d.size = digitCount d.digits + d.exponent := rfl
  simp only [toFloat, ← hsize, if_neg hd.ne']
  by_cases hhigh : 310 < d.size
  · simp only [if_pos hhigh]
  · by_cases hlow : d.size < -330
    · simp only [if_neg hhigh, if_pos hlow]
    · simp only [if_neg hhigh, if_neg hlow,
        ofScientific_eq (e := d.exponent) hd (by omega) (by omega)]
      rfl

/-- Zeros at the end of the digits may be counted by the exponent as well. -/
theorem toFloat_congr {k : ℕ} (hnegative : d.negative = y.negative)
    (hdigits : y.digits = d.digits * 10 ^ k) (hexponent : d.exponent = y.exponent + k) :
    d.toFloat = y.toFloat := by
  rcases Nat.eq_zero_or_pos d.digits with hzero | hpos
  · have hzero' : y.digits = 0 := by rw [hdigits, hzero, zero_mul]
    simp [toFloat, hzero, hzero', hnegative]
  · have hpos' : 0 < y.digits := by rw [hdigits]; positivity
    have hsize : y.size = d.size := by
      rw [size, size, hdigits, digitCount_mul_pow hpos, hexponent]
      push_cast
      ring
    have hmagnitude : y.magnitude = d.magnitude := by
      rw [magnitude, magnitude, hdigits, hexponent, zpow_add₀ (by norm_num), zpow_natCast]
      push_cast
      ring
    rw [toFloat_eq hpos, toFloat_eq hpos', hnegative, hsize, hmagnitude]

/-- The size of a decimal tells its number of digits. -/
theorem zpow_size_le (hd : 0 < d.digits) : (10 : ℚ) ^ (d.size - 1) ≤ d.magnitude := by
  have hpos := digitCount_pos d.digits
  have hdigits : (10 : ℚ) ^ ((digitCount d.digits : ℤ) - 1) ≤ d.digits := by
    have hcast : ((digitCount d.digits : ℤ) - 1) = (digitCount d.digits - 1 : ℕ) := by omega
    rw [hcast, zpow_natCast]
    exact_mod_cast pow_le_of_digitCount hd
  have hsplit : d.size - 1 = (digitCount d.digits : ℤ) - 1 + d.exponent := by
    rw [size]
    omega
  rw [hsplit, zpow_add₀ (by norm_num), magnitude]
  gcongr

theorem magnitude_lt_zpow_size (d : Decimal) : d.magnitude < 10 ^ d.size := by
  have hdigits : (d.digits : ℚ) < 10 ^ (digitCount d.digits : ℤ) := by
    rw [zpow_natCast]
    exact_mod_cast lt_pow_digitCount d.digits
  rw [size, zpow_add₀ (by norm_num), magnitude]
  gcongr

/-! ## Exact decimals -/

variable {hm : 0 < m}

theorem magnitude_exact {sign : Sign} (hx : x.toModel.unpack = .finite sign m e hm) :
    (exact x).magnitude = m * 2 ^ e := by
  rw [exact, mantissaAndExponent_eq hx]
  cases e with
  | ofNat q => simp [magnitude, Nat.shiftLeft_eq]
  | negSucc q =>
    have hten : (10 : ℚ) ^ (q + 1) = 5 ^ (q + 1) * 2 ^ (q + 1) := by
      rw [← mul_pow]
      norm_num
    simp only [magnitude, zpow_negSucc, Nat.pow_eq, Nat.cast_mul, Nat.cast_pow, Nat.cast_ofNat, hten]
    field_simp

theorem magnitude_bounds (h : IsStored m e) (hm : 0 < m) :
    (10 : ℚ) ^ (-330 : ℤ) ≤ m * 2 ^ e ∧ (m : ℚ) * 2 ^ e < 10 ^ (309 : ℤ) := by
  have hle : -1074 ≤ e := by
    rcases h.full with ⟨-, hle⟩ | ⟨-, rfl⟩
    · exact hle
    · exact le_rfl
  have hone : (1 : ℚ) ≤ m := by exact_mod_cast hm
  have hlt : (m : ℚ) < 2 ^ (53 : ℤ) := by exact_mod_cast h.lt
  constructor
  · calc (10 : ℚ) ^ (-330 : ℤ) ≤ 2 ^ (-1074 : ℤ) := by
          have hpowers : 2 ^ 1074 ≤ 10 ^ 330 := by decide +kernel
          rw [zpow_neg, zpow_neg]
          exact inv_anti₀ (by positivity) (by exact_mod_cast hpowers)
      _ ≤ 2 ^ e := zpow_le_zpow_right₀ one_le_two hle
      _ ≤ m * 2 ^ e := le_mul_of_one_le_left (by positivity) hone
  · calc (m : ℚ) * 2 ^ e < 2 ^ (53 : ℤ) * 2 ^ e := by gcongr
      _ ≤ 2 ^ (53 : ℤ) * 2 ^ (971 : ℤ) := by
        gcongr
        · exact one_le_two
        · exact h.le
      _ ≤ 10 ^ (309 : ℤ) := by
        have hpowers : 2 ^ 1024 ≤ 10 ^ 309 := by decide +kernel
        have hsum : (53 : ℤ) + 971 = 1024 := rfl
        rw [← zpow_add₀ two_ne_zero, hsum]
        exact_mod_cast hpowers

theorem negative_exact (x : Float) : (exact x).negative = false := by
  unfold exact
  split <;> rfl

theorem toFloat_exact (hx : x.toModel.unpack = .finite .positive m e hm) :
    (exact x).toFloat = x := by
  have hstored := isStored_of_finite hx
  have hmagnitude := magnitude_exact hx
  obtain ⟨hlow, hhigh⟩ := magnitude_bounds hstored hm
  have hd : 0 < (exact x).digits := by
    by_contra hzero
    have hnone : (exact x).magnitude = 0 := by simp [magnitude, Nat.eq_zero_of_not_pos hzero]
    have hpositive : (0 : ℚ) < m * 2 ^ e := by positivity
    exact hpositive.ne' (hmagnitude ▸ hnone)
  have hle : (exact x).size - 1 < 309 := by
    rw [← zpow_lt_zpow_iff_right₀ (by norm_num : (1 : ℚ) < 10)]
    exact (zpow_size_le hd).trans_lt (hmagnitude ▸ hhigh)
  have hge : -330 < (exact x).size := by
    rw [← zpow_lt_zpow_iff_right₀ (by norm_num : (1 : ℚ) < 10)]
    exact (hmagnitude ▸ hlow).trans_lt (magnitude_lt_zpow_size _)
  have hnearest : nearest (exact x).magnitude = x := by
    rw [nearest, hmagnitude, rounded_of_isPackable hm (hstored.isPackable hm), ← hx, pack_unpack]
  rw [toFloat_eq hd]
  simp only [if_neg (not_lt.2 (show (exact x).size ≤ 310 by omega)),
    if_neg (not_lt.2 (show -330 ≤ (exact x).size by omega)), negative_exact, hnearest]
  rfl

/-- The fewest digits that read back do read back: at the latest all digits of the number do. -/
theorem toFloat_shortest (hx : x.toModel.unpack = .finite .positive m e hm) :
    (shortest x).toFloat = x := by
  simp only [shortest]
  cases hfound : (List.range (digitCount (exact x).digits)).reverse.findSome? fun drop =>
      (candidates (exact x) drop).find? fun candidate => candidate.toFloat == x with
  | none => exact toFloat_exact hx
  | some candidate =>
    obtain ⟨drop, -, hcandidate⟩ := List.exists_of_findSome?_eq_some hfound
    exact eq_of_beq_finite hx (by simpa using List.find?_some hcandidate)

theorem negative_shortest (x : Float) : (shortest x).negative = false := by
  simp only [shortest]
  cases hfound : (List.range (digitCount (exact x).digits)).reverse.findSome? fun drop =>
      (candidates (exact x) drop).find? fun candidate => candidate.toFloat == x with
  | none => exact negative_exact x
  | some candidate =>
    obtain ⟨drop, -, hcandidate⟩ := List.exists_of_findSome?_eq_some hfound
    have hmem := List.mem_of_find?_eq_some hcandidate
    simp only [candidates] at hmem
    split at hmem <;> simp at hmem <;> rcases hmem with rfl | rfl <;> rfl

/-! ## Numbers without digits -/

theorem unpack_zero : (0.0 : Float).toModel.unpack = .zero .positive := by
  have hzero : (0.0 : Float) = .ofModel (.pack (.zero .positive)) := by decide +kernel
  rw [hzero]
  rfl

theorem unpack_neg_zero : (-0.0 : Float).toModel.unpack = .zero .negative := by
  have hzero : (-0.0 : Float) = .ofModel (.pack (.zero .negative)) := by decide +kernel
  rw [hzero]
  rfl

theorem unpack_infinity : infinity.toModel.unpack = .infinity .positive := by
  have hinfinity : infinity = .ofModel (.pack (.infinity .positive)) := by decide +kernel
  rw [hinfinity]
  rfl

theorem unpack_neg_infinity : (-infinity).toModel.unpack = .infinity .negative := by
  have hinfinity : -infinity = .ofModel (.pack (.infinity .negative)) := by decide +kernel
  rw [hinfinity]
  rfl

/-- A finite number is not infinity. -/
theorem beq_infinity {sign : Sign} (hx : x.toModel.unpack = .finite sign m e hm) :
    (x == infinity) = false := by
  have hbeq : (x == infinity) = x.toModel.unpack.beq infinity.toModel.unpack := rfl
  rw [hbeq, hx, unpack_infinity]
  cases sign <;> rfl

theorem digits_shortest_pos (hx : x.toModel.unpack = .finite .positive m e hm) :
    0 < (shortest x).digits := by
  by_contra hzero
  have hread := toFloat_shortest hx
  have hnone : (shortest x).toFloat = 0.0 := by
    simp [toFloat, Nat.eq_zero_of_not_pos hzero, negative_shortest]
  rw [← hread, hnone, unpack_zero] at hx
  cases hx

end AttackSurface.Decimal
