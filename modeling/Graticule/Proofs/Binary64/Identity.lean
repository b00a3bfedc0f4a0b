import Graticule.Proofs.Binary64.Number
import Graticule.Proofs.Identity

/-!
# Identity of doubles

A pattern that is not a number is one fixed pattern, so doubles that are the same are one
double, with one exception: the two zeros. These stand for one number too, and all other
doubles are told apart by the numbers they stand for, so identity of doubles is equality
of these numbers.
-/

namespace Graticule.Binary64

open Float.Model
open Float.Model.UnpackedFloat hiding pack unpack

variable {x y : Float} {f g : UnpackedFloat}

theorem eq_of_toBits_eq (h : x.toBits = y.toBits) : x = y := by
  obtain ⟨⟨bits, hvalid⟩⟩ := x
  obtain ⟨⟨bits', hvalid'⟩⟩ := y
  obtain rfl : bits = bits' := h
  rfl

theorem point_eq_of_toBits_eq {p q : Point Float}
    (hlongitude : p.longitude.toBits = q.longitude.toBits)
    (hlatitude : p.latitude.toBits = q.latitude.toBits) (haltitude : p.altitude = q.altitude) :
    p = q := by
  obtain ⟨longitude, latitude, altitude⟩ := p
  obtain rfl := eq_of_toBits_eq hlongitude
  obtain rfl := eq_of_toBits_eq hlatitude
  obtain rfl := haltitude
  rfl

theorem toNat_unsigned (bits : UInt64) : (unsigned bits).toNat = bits.toNat % 2 ^ 63 := by
  rw [unsigned, UInt64.toNat_and]
  exact Nat.and_two_pow_sub_one_eq_mod bits.toNat 63

theorem eq_zero_of_unsigned_eq_zero (h : unsigned x.toBits = 0) : x = 0 ∨ x = -0 := by
  have hlt := x.toBits.toNat_lt
  have hmod := toNat_unsigned x.toBits
  rw [h, UInt64.toNat_zero] at hmod
  have hcases : x.toBits.toNat = 0 ∨ x.toBits.toNat = 2 ^ 63 := by omega
  rcases hcases with hzero | hsign
  · exact .inl (eq_of_toBits_eq (UInt64.toNat_inj.mp hzero))
  · exact .inr (eq_of_toBits_eq (UInt64.toNat_inj.mp hsign))

theorem isNaN_iff_parts (bits : UInt64) :
    isNaN bits = true
      ↔ @unpackExponent Format.binary64 bits.toBitVec = -1#11
        ∧ @unpackMantissa Format.binary64 bits.toBitVec ≠ 0#52 := by
  have hexponent : (@unpackExponent Format.binary64 bits.toBitVec).toNat
      = bits.toNat / 2 ^ 52 % 2 ^ 11 := by
    show (bits.toNat >>> 52) % 2 ^ 11 = _
    rw [Nat.shiftRight_eq_div_pow]
  have hmantissa : (@unpackMantissa Format.binary64 bits.toBitVec).toNat
      = bits.toNat % 2 ^ 52 := rfl
  have hlarge : isNaN bits = true ↔ 0x7ff0000000000000 < bits.toNat % 2 ^ 63 := by
    rw [isNaN, decide_eq_true_iff, UInt64.lt_iff_toNat_lt, toNat_unsigned]
    rfl
  rw [hlarge, ne_eq, eq_neg_one_iff, eq_zero_iff, hexponent, hmantissa]
  omega

/-- A pattern that is not a number is the one that stands for all of them. -/
theorem toBitVec_of_isNaN (h : isNaN x.toBits = true) :
    x.toBits.toBitVec = packedNaN Format.binary64 := by
  obtain ⟨hexponent, hmantissa⟩ := (isNaN_iff_parts x.toBits).mp h
  exact x.toModel.valid.eq_packedNaN hexponent hmantissa

/-! ## Canonical patterns -/

theorem isNaN_of_unsigned_eq_zero {bits : UInt64} (h : unsigned bits = 0) :
    isNaN bits = false := by
  rw [isNaN, h]
  rfl

theorem unsigned_canonical_eq_zero_iff (bits : UInt64) :
    unsigned (canonical bits) = 0 ↔ unsigned bits = 0 := by
  unfold canonical
  split
  · next hzero => exact iff_of_true rfl (beq_iff_eq.mp hzero)
  · next hzero =>
      split
      · exact iff_of_false (by decide) fun h => hzero (beq_iff_eq.mpr h)
      · exact Iff.rfl

theorem isNaN_canonical (bits : UInt64) : isNaN (canonical bits) = isNaN bits := by
  unfold canonical
  split
  · next hzero => exact (isNaN_of_unsigned_eq_zero (beq_iff_eq.mp hzero)).symm
  · split
    · next hnan => exact hnan.symm
    · rfl

theorem canonical_eq_self {bits : UInt64} (hzero : unsigned bits ≠ 0)
    (hnan : ¬ isNaN bits = true) : canonical bits = bits := by
  rw [canonical, if_neg (fun h => hzero (beq_iff_eq.mp h)), if_neg hnan]

/-- Doubles that are the same are one double, or two zeros. -/
theorem eq_or_zeros_of_same (h : Scalar.same x y = true) :
    x = y ∨ (x = 0 ∨ x = -0) ∧ (y = 0 ∨ y = -0) := by
  have hcanonical := (same_iff x y).mp h
  have hzeros : unsigned x.toBits = 0 ↔ unsigned y.toBits = 0 := by
    rw [← unsigned_canonical_eq_zero_iff, hcanonical, unsigned_canonical_eq_zero_iff]
  have hnans : isNaN x.toBits = isNaN y.toBits := by
    rw [← isNaN_canonical, hcanonical, isNaN_canonical]
  by_cases hzero : unsigned x.toBits = 0
  · exact .inr ⟨eq_zero_of_unsigned_eq_zero hzero, eq_zero_of_unsigned_eq_zero (hzeros.mp hzero)⟩
  · by_cases hnan : isNaN x.toBits = true
    · have hpattern := (toBitVec_of_isNaN hnan).trans (toBitVec_of_isNaN (hnans ▸ hnan)).symm
      exact .inl (eq_of_toBits_eq (UInt64.toBitVec_inj.mp hpattern))
    · rw [canonical_eq_self hzero hnan, canonical_eq_self (mt hzeros.mpr hzero) (hnans ▸ hnan)]
        at hcanonical
      exact .inl (eq_of_toBits_eq hcanonical)

/-! ## Numbers -/

theorem pack_toModel (x : Float) :
    UnpackedFloat.pack Format.binary64 x.toModel.unpack = x.toBits.toBitVec := by
  refine (UnpackedFloat.pack_unpack _).trans ?_
  split
  · next hnan =>
      obtain ⟨hones, hfraction⟩ := of_decide_eq_true hnan
      exact (x.toModel.valid.eq_packedNaN hones hfraction).symm
  · rfl

theorem eq_of_unpack_eq (h : x.toModel.unpack = y.toModel.unpack) : x = y := by
  refine eq_of_toBits_eq (UInt64.toBitVec_inj.mp ?_)
  rw [← pack_toModel, h, pack_toModel]

/-- Values that compare as equal are one value, or two zeros. -/
theorem eq_or_zeros_of_compare (h : f.compare g = some .eq) :
    f = g ∨ (∃ s, f = .zero s) ∧ ∃ s, g = .zero s := by
  cases f with
  | notANumber => cases h
  | infinity s =>
      cases g with
      | infinity s' => cases s <;> cases s' <;> first | exact .inl rfl | cases h
      | notANumber => cases h
      | zero s' => cases s <;> cases h
      | finite s' m' e' hm' => cases s <;> cases h
  | zero s =>
      cases g with
      | zero s' => exact .inr ⟨⟨s, rfl⟩, s', rfl⟩
      | notANumber => cases h
      | infinity s' => cases s' <;> cases h
      | finite s' m' e' hm' => cases s' <;> cases h
  | finite s m e hm =>
      cases g with
      | notANumber => cases h
      | infinity s' => cases s' <;> cases h
      | zero s' => cases s <;> cases h
      | finite s' m' e' hm' =>
          have hparts : (compare e e').then (compare m m') = .eq → e = e' ∧ m = m' := by
            rw [Ordering.then_eq_eq, compare_eq_iff_eq, compare_eq_iff_eq]
            exact id
          cases s <;> cases s'
          · obtain ⟨rfl, rfl⟩ := hparts (Ordering.swap_eq_eq.mp (Option.some.inj h))
            exact .inl rfl
          · cases h
          · cases h
          · obtain ⟨rfl, rfl⟩ := hparts (Option.some.inj h)
            exact .inl rfl

theorem unpack_of_value_none (h : value x = none) : x.toModel.unpack = .notANumber := by
  unfold value at h
  cases hf : x.toModel.unpack <;> rw [hf] at h <;> first | rfl | cases h

theorem eq_zero_of_unpack_eq {s : Sign} (h : x.toModel.unpack = .zero s) : x = 0 ∨ x = -0 := by
  cases s with
  | positive => exact .inl (eq_of_unpack_eq (y := 0) h)
  | negative => exact .inr (eq_of_unpack_eq (y := -0) h)

theorem same_of_zeros (hx : x = 0 ∨ x = -0) (hy : y = 0 ∨ y = -0) : Scalar.same x y = true := by
  rcases hx with rfl | rfl <;> rcases hy with rfl | rfl <;> rfl

theorem value_of_zero (h : x = 0 ∨ x = -0) : value x = some 0 := by
  rcases h with rfl | rfl <;> rfl

/-- Doubles are the same when they stand for the same number, or both for none. -/
theorem same_iff_value : Scalar.same x y = true ↔ value x = value y := by
  constructor
  · intro h
    rcases eq_or_zeros_of_same h with rfl | ⟨hx, hy⟩
    · rfl
    · rw [value_of_zero hx, value_of_zero hy]
  · intro h
    cases hx : value x with
    | none =>
        have hunpack := (unpack_of_value_none hx).trans (unpack_of_value_none (h ▸ hx)).symm
        rw [eq_of_unpack_eq hunpack]
        exact Scalar.LawfulSame.refl y
    | some p =>
        have hcompare := compare_toModel hx (h ▸ hx)
        rw [cmp_self_eq_eq] at hcompare
        rcases eq_or_zeros_of_compare hcompare with hunpack | ⟨⟨s, hs⟩, s', hs'⟩
        · rw [eq_of_unpack_eq hunpack]
          exact Scalar.LawfulSame.refl y
        · exact same_of_zeros (eq_zero_of_unpack_eq hs) (eq_zero_of_unpack_eq hs')

end Graticule.Binary64
