import Graticule.Proofs.Binary64.Rounding

/-!
# Doubles as patterns

A double is kept as a pattern of 64 bits. Packing makes an infinity of what is
too large, and changes nothing else of a value in canonical form; what is
unpacked from a pattern is in canonical form and not too large.
-/

namespace Graticule.Binary64

open Float.Model
open Float.Model.UnpackedFloat hiding pack unpack

/-- The value itself, or an infinity if it is too large for a double. -/
def fit : UnpackedFloat → UnpackedFloat
  | .finite s m e h => if 971 < e then .infinity s else .finite s m e h
  | f => f

/-! ## The parts of a pattern -/

theorem ofBitVec_unpackSign {spec : Format} (s : Sign) (e : BitVec spec.exponentBits)
    (m : BitVec spec.mantissaBitsWithoutImplicit) :
    Sign.ofBitVec (unpackSign (packComponents spec s e m)) = s := by
  have hbits : unpackSign (packComponents spec s e m) = s.toBitVec := by
    apply BitVec.eq_of_getLsbD_eq
    intro i hi
    have hzero : i = 0 := by omega
    subst hzero
    simp [unpackSign, packComponents, BitVec.getLsbD_append, BitVec.getElem_append]
  rw [hbits]
  cases s <;> rfl

theorem toNat_implicit (m : BitVec 52) : (1#1 ++ m).toNat = 2 ^ 52 + m.toNat := by
  rw [BitVec.toNat_append, ← Nat.shiftLeft_add_eq_or_of_lt m.isLt]
  rfl

theorem eq_neg_one_iff (b : BitVec 11) : b = -1#11 ↔ b.toNat = 2047 := by
  rw [← BitVec.toNat_inj]
  rfl

theorem eq_zero_iff {n : ℕ} (b : BitVec n) : b = 0#n ↔ b.toNat = 0 := by
  rw [← BitVec.toNat_inj, BitVec.toNat_zero]

/-! ## Packing -/

variable {s : Sign} {m : ℕ} {e : ℤ}

theorem exponentBias_eq : Format.binary64.exponentBias = 1023 := rfl

theorem mantissaBits_eq : Format.binary64.mantissaBits = 53 := rfl

theorem biased_eq (e : ℤ) : e + (1023 : ℕ) + (52 : ℕ) = e + 1075 := by omega

theorem pack_of_large (hm : 0 < m) (he : 971 < e) :
    UnpackedFloat.pack Format.binary64 (.finite s m e hm)
      = packedInfinity Format.binary64 s := by
  rw [UnpackedFloat.pack]
  simp only [exponentBias_eq, biased_eq]
  rw [if_pos (by omega)]

/-- A full mantissa is packed without its first bit, which the exponent
implies. -/
theorem pack_of_full (h : Canonical m e) (hfull : 2 ^ 52 ≤ m) (he : e ≤ 971) :
    UnpackedFloat.pack Format.binary64 (.finite s m e h.pos)
      = packComponents Format.binary64 s (BitVec.ofNat 11 (e + 1075).toNat)
          (BitVec.ofNat 52 m) := by
  have hlog : m.log2 + 1 = 53 := by
    have hge := (Nat.le_log2 h.pos.ne').mpr hfull
    have hle := (Nat.log2_lt h.pos.ne').mpr h.lt
    omega
  rw [UnpackedFloat.pack]
  simp only [exponentBias_eq, mantissaBits_eq, biased_eq]
  rw [if_neg (by omega), if_pos hlog]

theorem pack_of_least (hm : 0 < m) (hlt : m < 2 ^ 52) :
    UnpackedFloat.pack Format.binary64 (.finite s m (-1074) hm)
      = packComponents Format.binary64 s 0#11 (BitVec.ofNat 52 m) := by
  have hlog := (Nat.log2_lt hm.ne').mpr hlt
  rw [UnpackedFloat.pack]
  simp only [exponentBias_eq, mantissaBits_eq, biased_eq]
  rw [if_neg (by omega), if_neg (by omega)]

theorem unpack_pack_of_full (h : Canonical m e) (hfull : 2 ^ 52 ≤ m) (he : e ≤ 971) :
    UnpackedFloat.unpack Format.binary64 (UnpackedFloat.pack Format.binary64
      (.finite s m e h.pos)) = .finite s m e h.pos := by
  have hleast := h.least
  have hlt := h.lt
  have hexponent : (BitVec.ofNat 11 (e + 1075).toNat).toNat = (e + 1075).toNat := by
    rw [BitVec.toNat_ofNat, Nat.mod_eq_of_lt (by omega)]
  have hmantissa : (1#1 ++ BitVec.ofNat 52 m).toNat = m := by
    rw [toNat_implicit, BitVec.toNat_ofNat]
    omega
  rw [pack_of_full h hfull he]
  simp only [UnpackedFloat.unpack, ofBitVec_unpackSign, unpackExponent_packComponents,
    unpackMantissa_packComponents]
  rw [if_neg ((eq_neg_one_iff _).not.mpr (by omega)),
    if_neg ((eq_zero_iff _).not.mpr (by omega))]
  rw [UnpackedFloat.finite.injEq, hexponent, exponentBias_eq]
  exact ⟨rfl, hmantissa, by omega⟩

theorem unpack_pack_of_least (h : Canonical m (-1074)) (hm : m < 2 ^ 52) :
    UnpackedFloat.unpack Format.binary64 (UnpackedFloat.pack Format.binary64
      (.finite s m (-1074) h.pos)) = .finite s m (-1074) h.pos := by
  have hpos := h.pos
  have hmantissa : (BitVec.ofNat 52 m).toNat = m := by
    rw [BitVec.toNat_ofNat, Nat.mod_eq_of_lt hm]
  rw [pack_of_least h.pos hm]
  simp only [UnpackedFloat.unpack, ofBitVec_unpackSign, unpackExponent_packComponents,
    unpackMantissa_packComponents]
  rw [if_neg (by decide), if_pos trivial, dif_neg ((eq_zero_iff _).not.mpr (by omega))]
  rw [UnpackedFloat.finite.injEq, exponentBias_eq]
  exact ⟨rfl, hmantissa, rfl⟩

theorem unpack_pack {f : UnpackedFloat} (h : InForm f) :
    UnpackedFloat.unpack Format.binary64 (UnpackedFloat.pack Format.binary64 f) = fit f := by
  cases f with
  | notANumber => rfl
  | infinity s => cases s <;> rfl
  | zero s => cases s <;> rfl
  | finite s m e hm =>
      have hcanonical : Canonical m e := h
      rcases lt_or_ge 971 e with hlarge | he
      · rw [pack_of_large hm hlarge, fit, if_pos hlarge]
        cases s <;> rfl
      · rw [fit, if_neg (not_lt.mpr he)]
        rcases le_or_gt (2 ^ 52) m with hfull | hlt
        · exact unpack_pack_of_full hcanonical hfull he
        · obtain rfl := hcanonical.full.resolve_right (not_le.mpr hlt)
          exact unpack_pack_of_least hcanonical hlt

/-! ## Unpacking -/

/-- What a double can be: its finite values are in canonical form and not too
large. -/
structure Fits (f : UnpackedFloat) : Prop where
  form : InForm f
  fit_eq : fit f = f

theorem Fits.finite {hm : 0 < m} (h : Fits (.finite s m e hm)) : Canonical m e ∧ e ≤ 971 := by
  refine ⟨h.form, not_lt.mp fun hlarge => ?_⟩
  have heq := h.fit_eq
  rw [fit, if_pos hlarge] at heq
  cases heq

theorem fits_finite (h : Canonical m e) (he : e ≤ 971) : Fits (.finite s m e h.pos) :=
  ⟨h, by rw [fit, if_neg (not_lt.mpr he)]⟩

theorem fits_unpack (b : BitVec 64) : Fits (UnpackedFloat.unpack Format.binary64 b) := by
  have hmantissa : (@unpackMantissa Format.binary64 b).toNat < 2 ^ 52 := BitVec.isLt _
  have hexponent : (@unpackExponent Format.binary64 b).toNat < 2 ^ 11 := BitVec.isLt _
  unfold UnpackedFloat.unpack
  simp only [exponentBias_eq]
  split_ifs with hones hzero hleast hzero
  · exact ⟨trivial, rfl⟩
  · exact ⟨trivial, rfl⟩
  · exact ⟨trivial, rfl⟩
  · have hpos := (eq_zero_iff _).not.mp hzero
    rw [hleast]
    exact fits_finite ⟨Nat.pos_of_ne_zero hpos, by omega, by omega, .inl rfl⟩ (by decide)
  · have hsmall := (eq_neg_one_iff _).not.mp hones
    have hlarge := (eq_zero_iff _).not.mp hleast
    have himplicit := toNat_implicit (@unpackMantissa Format.binary64 b)
    refine fits_finite ⟨?_, ?_, ?_, .inr ?_⟩ ?_ <;> omega

end Graticule.Binary64
