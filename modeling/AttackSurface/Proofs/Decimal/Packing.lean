import AttackSurface.Decimal.Shortest
import AttackSurface.Proofs.Decimal.Rounding

/-! The bits of a floating-point number: a sign, an exponent and a mantissa. What they are unpacked
to is packed to the same bits again, so that a number is known by what it is unpacked to. -/
namespace AttackSurface.Decimal

open Float.Model Float.Model.UnpackedFloat

variable {sign : Sign} {m : ℕ} {e : ℤ} {x y : Float} {b : BitVec Format.binary64.numBits}

/-! ## Components -/

theorem toNat_unpackMantissa : (unpackMantissa b).toNat = b.toNat % (1 <<< 52) := by
  simp [unpackMantissa]

theorem toNat_unpackExponent :
    (unpackExponent b).toNat = (b.toNat >>> 52) % (1 <<< 11) := by
  simp [unpackExponent]

theorem toNat_append_implicit (mantissa : BitVec 52) :
    (1#1 ++ mantissa).toNat = (1 <<< 52) + mantissa.toNat := by
  have hsum := Nat.or_two_pow_eq_add_of_lt mantissa.isLt
  rw [BitVec.toNat_append, Nat.or_comm, Nat.add_comm]
  exact hsum

/-! ## Finite numbers -/

/-- Mantissa and exponent of a number that has bits: all digits, or the least exponent. -/
structure IsStored (m : ℕ) (e : ℤ) : Prop where
  lt : m < 2 ^ 53
  le : e ≤ 971
  full : 2 ^ 52 ≤ m ∧ -1074 ≤ e ∨ m < 2 ^ 52 ∧ e = -1074

theorem IsStored.isPackable (h : IsStored m e) (hm : 0 < m) : IsPackable m e := by
  have hlog : m.log2 < 53 := (Nat.log2_lt hm.ne').2 h.lt
  rw [IsPackable, targetExponent_eq, totalExponent]
  rcases h.full with ⟨hfull, he⟩ | ⟨-, rfl⟩
  · have hdigits : 52 ≤ m.log2 := (Nat.le_log2 hm.ne').2 hfull
    omega
  · omega

/-- What the bits of a finite number are, as numbers. -/
theorem fields_of_unpack {hm : 0 < m}
    (h : UnpackedFloat.unpack Format.binary64 b = .finite sign m e hm) :
    sign = .ofBitVec (unpackSign b) ∧
    (unpackExponent b = 0#11 ∧ m = (unpackMantissa b).toNat ∧ e = -1074 ∨
      (unpackExponent b).toNat ≠ 0 ∧ (unpackExponent b).toNat < 2047 ∧
        m = (1 <<< 52) + (unpackMantissa b).toNat ∧ e = (unpackExponent b).toNat - 1075) := by
  have hlt : (unpackExponent b).toNat < 2048 := (unpackExponent b).isLt
  unfold UnpackedFloat.unpack at h
  simp only at h
  split at h
  · split at h <;> cases h
  · rename_i hspecial
    have hspecial : (unpackExponent b).toNat ≠ 2047 := fun hmax =>
      hspecial (BitVec.toNat_inj.1 hmax)
    split at h
    · rename_i hzero
      split at h
      · cases h
      · cases h
        exact ⟨rfl, .inl ⟨hzero, rfl, by rw [hzero]; rfl⟩⟩
    · rename_i hzero
      have hzero : (unpackExponent b).toNat ≠ 0 := fun hzero' =>
        hzero (BitVec.toNat_inj.1 hzero')
      cases h
      exact ⟨rfl, .inr ⟨hzero, by omega, toNat_append_implicit _, rfl⟩⟩

theorem isStored_of_unpack {hm : 0 < m}
    (h : UnpackedFloat.unpack Format.binary64 b = .finite sign m e hm) : IsStored m e := by
  have hlt : (unpackMantissa b).toNat < 2 ^ 52 := (unpackMantissa b).isLt
  rcases (fields_of_unpack h).2 with ⟨-, rfl, rfl⟩ | ⟨hzero, hmax, rfl, rfl⟩
  · exact ⟨by omega, by omega, .inr ⟨hlt, rfl⟩⟩
  · have hone : 1 <<< 52 = 2 ^ 52 := rfl
    exact ⟨by omega, by omega, .inl ⟨by omega, by omega⟩⟩

theorem pack_full (hm : 0 < m) (hfull : 2 ^ 52 ≤ m) (hlt : m < 2 ^ 53) (hle : -1074 ≤ e)
    (hmax : e ≤ 971) : UnpackedFloat.pack Format.binary64 (.finite sign m e hm) =
      packComponents Format.binary64 sign (BitVec.ofNat 11 (e + 1075).toNat)
        (BitVec.ofNat 52 m) := by
  have hlog : m.log2 + 1 = Format.binary64.mantissaBits := by
    have hdigits := (Nat.le_log2 hm.ne').2 hfull
    have hlength := (Nat.log2_lt hm.ne').2 hlt
    have hbits : Format.binary64.mantissaBits = 53 := rfl
    omega
  have hbiased : e + Format.binary64.exponentBias + Format.binary64.mantissaBitsWithoutImplicit =
      e + 1075 := by
    have hbias : Format.binary64.exponentBias = 1023 := rfl
    have hbits : Format.binary64.mantissaBitsWithoutImplicit = 52 := rfl
    omega
  simp only [UnpackedFloat.pack, hbiased]
  rw [if_neg (by omega), if_pos hlog]

theorem pack_subnormal (hm : 0 < m) (hlt : m < 2 ^ 52) :
    UnpackedFloat.pack Format.binary64 (.finite sign m (-1074) hm) =
      packComponents Format.binary64 sign 0#11 (BitVec.ofNat 52 m) := by
  have hlog : m.log2 + 1 ≠ Format.binary64.mantissaBits := by
    have hlength := (Nat.log2_lt hm.ne').2 hlt
    have hbits : Format.binary64.mantissaBits = 53 := rfl
    omega
  simp only [UnpackedFloat.pack]
  rw [if_neg (by decide), if_neg hlog]

/-- What is packed is unpacked to the same number again. -/
theorem unpack_pack (h : IsStored m e) (hm : 0 < m) :
    UnpackedFloat.unpack Format.binary64
      (UnpackedFloat.pack Format.binary64 (.finite sign m e hm)) = .finite sign m e hm := by
  have hlt := h.lt
  rcases h.full with ⟨hfull, hle⟩ | ⟨hlt, rfl⟩
  · obtain ⟨biased, rfl⟩ : ∃ biased : ℕ, e = biased - 1075 := ⟨(e + 1075).toNat, by omega⟩
    have hmax := h.le
    have hexponent : (BitVec.ofNat 11 biased).toNat = biased := by
      rw [BitVec.toNat_ofNat]
      omega
    have hmantissa : (BitVec.ofNat 52 m).toNat = m - 2 ^ 52 := by
      rw [BitVec.toNat_ofNat]
      omega
    have hzero : BitVec.ofNat 11 biased ≠ 0#11 := by
      rw [Ne, ← BitVec.toNat_inj, hexponent, BitVec.toNat_zero]
      omega
    have hspecial : BitVec.ofNat 11 biased ≠ -1#11 := by
      have hones : (-1#11).toNat = 2047 := rfl
      rw [Ne, ← BitVec.toNat_inj, hexponent, hones]
      omega
    rw [pack_full hm hfull hlt hle hmax, sub_add_cancel, Int.toNat_natCast]
    unfold UnpackedFloat.unpack
    simp only [unpackMantissa_packComponents, unpackExponent_packComponents,
      unpackSign_packComponents, Sign.ofBitVec_toBitVec, if_neg hspecial, if_neg hzero]
    congr 1
    · rw [toNat_append_implicit, hmantissa]
      omega
    · rw [hexponent]
      rfl
  · have hmantissa : (BitVec.ofNat 52 m).toNat = m := by
      rw [BitVec.toNat_ofNat]
      omega
    have hzero : BitVec.ofNat 52 m ≠ 0#52 := by
      rw [Ne, ← BitVec.toNat_inj, hmantissa, BitVec.toNat_zero]
      omega
    have hspecial : (0#11) ≠ -1#11 := by decide
    rw [pack_subnormal hm hlt]
    unfold UnpackedFloat.unpack
    simp only [unpackMantissa_packComponents, unpackExponent_packComponents,
      unpackSign_packComponents, Sign.ofBitVec_toBitVec, if_neg hspecial, dif_neg hzero, hmantissa]
    rfl

/-! ## Numbers -/

/-- A number is packed to its own bits. -/
theorem pack_unpack (x : Float.Model) : Float.Model.pack x.unpack = x := by
  obtain ⟨bits, valid⟩ := x
  have hbits := UnpackedFloat.pack_unpack_of_valid valid
  rw [Float.Model.pack, Float.Model.unpack]
  simp only [hbits]

theorem eq_of_unpack (h : x.toModel.unpack = y.toModel.unpack) : x = y := by
  have hmodel : x.toModel = y.toModel := by rw [← pack_unpack x.toModel, h, pack_unpack]
  cases x
  cases y
  exact congrArg Float.ofModel hmodel

/-- Two numbers of which one is finite and not zero are the same if they compare so. -/
theorem eq_of_beq_finite {hm : 0 < m} (hy : y.toModel.unpack = .finite sign m e hm)
    (h : (x == y) = true) : x = y := by
  have hbeq : x.toModel.unpack.beq y.toModel.unpack = true := h
  obtain ⟨-, -, heq | ⟨-, hzero⟩ | ⟨-, hzero⟩⟩ :=
    (UnpackedFloat.beq_iff_ne_notANumber_and_eq _ _).1 hbeq
  · exact eq_of_unpack heq
  · rw [hy] at hzero
    cases hzero
  · rw [hy] at hzero
    cases hzero

/-! ## Signs -/

variable {hm : 0 < m}

theorem isStored_of_finite (hx : x.toModel.unpack = .finite sign m e hm) : IsStored m e :=
  isStored_of_unpack hx

theorem isNaN_of_finite (hx : x.toModel.unpack = .finite sign m e hm) : x.isNaN = false := by
  have hmodel : x.isNaN = x.toModel.unpack.isNaN := rfl
  rw [hmodel, hx]
  rfl

theorem isInf_of_finite (hx : x.toModel.unpack = .finite sign m e hm) : x.isInf = false := by
  have hmodel : x.isInf = x.toModel.unpack.isInf := rfl
  rw [hmodel, hx]
  rfl

theorem unpack_model_pack (h : IsStored m e) :
    (Float.Model.pack (.finite sign m e hm)).unpack = .finite sign m e hm :=
  unpack_pack h hm

theorem unpack_abs (hx : x.toModel.unpack = .finite sign m e hm) :
    x.abs.toModel.unpack = .finite .positive m e hm := by
  have habs : x.abs.toModel = Float.Model.pack x.toModel.unpack.abs := rfl
  rw [habs, hx]
  exact unpack_model_pack (isStored_of_finite hx)

theorem unpack_neg (hx : x.toModel.unpack = .finite sign m e hm) :
    (-x).toModel.unpack = .finite (-sign) m e hm := by
  have hneg : (-x).toModel = Float.Model.pack x.toModel.unpack.neg := rfl
  rw [hneg, hx]
  exact unpack_model_pack (isStored_of_finite hx)

theorem mantissaAndExponent_eq (hx : x.toModel.unpack = .finite sign m e hm) :
    mantissaAndExponent x = (m, e) := by
  have hbits : x.toBits.toNat = x.toModel.toBits.toBitVec.toNat := rfl
  simp only [mantissaAndExponent, hbits, ← toNat_unpackMantissa, ← toNat_unpackExponent]
  rcases (fields_of_unpack hx).2 with ⟨hexponent, rfl, rfl⟩ | ⟨hzero, -, rfl, rfl⟩
  · rw [hexponent]
    rfl
  · rw [if_neg hzero]

/-- The first bit is the sign. -/
theorem toBits_lt_iff (x : Float) : x.toBits < 0x8000000000000000 ↔
    @unpackSign Format.binary64 x.toModel.toBits.toBitVec = 0#1 := by
  have hsign : (@unpackSign Format.binary64 x.toModel.toBits.toBitVec).toNat =
      (x.toBits.toNat >>> 63) % 2 := by
    simp [unpackSign, Float.toBits]
  have hlt : x.toBits.toNat < 2 ^ 64 := x.toBits.toNat_lt
  have hhalf : (0x8000000000000000 : UInt64).toNat = 2 ^ 63 := rfl
  rw [← BitVec.toNat_inj, hsign, UInt64.lt_iff_toNat_lt, hhalf, BitVec.toNat_zero]
  omega

end AttackSurface.Decimal
