import Graticule.Proofs.Binary64.Number

/-!
# Arithmetic on doubles

Sums, differences and products of finite doubles are the exact ones, rounded to
the nearest double, and an infinity where that is too large.
-/

namespace Graticule.Binary64

open Float.Model
open Float.Model.UnpackedFloat hiding pack unpack

variable {s : Sign} {m : ℕ} {e : ℤ} {f g : UnpackedFloat} {p q : ℚ} {x y : Float}

/-! ## Packing the answer -/

/-- What is too large goes no further than the infinities. -/
def clamp (q : ℚ) : ℚ := max (-tooLarge) (min q tooLarge)

theorem clamp_mono (h : p ≤ q) : clamp p ≤ clamp q :=
  max_le_max le_rfl (min_le_min h le_rfl)

theorem clamp_eq (h : |q| ≤ tooLarge) : clamp q = q := by
  obtain ⟨hge, hle⟩ := abs_le.mp h
  rw [clamp, min_eq_left hle, max_eq_right hge]

theorem number_fit (h : InForm f) : number (fit f) = (number f).map clamp := by
  have htop := tooLarge_pos
  cases f with
  | notANumber => rfl
  | infinity s =>
      cases s
      · exact congrArg some (clamp_eq (by rw [signed, abs_neg, abs_of_pos htop])).symm
      · exact congrArg some (clamp_eq (by rw [signed, abs_of_pos htop])).symm
  | zero s => exact congrArg some (clamp_eq (by rw [abs_zero]; exact htop.le)).symm
  | finite s m e hm =>
      have hcanonical : Canonical m e := h
      rcases lt_or_ge 971 e with he | he
      · have hle := hcanonical.le_size he
        rw [fit, if_pos he]
        cases s
        · show some (-tooLarge) = some (max (-tooLarge) (min (-(m * 2 ^ e)) tooLarge))
          rw [min_eq_left (by linarith), max_eq_left (by linarith)]
        · show some tooLarge = some (max (-tooLarge) (min (m * 2 ^ e) tooLarge))
          rw [min_eq_right hle, max_eq_right (by linarith)]
      · have hbounds := (fits_finite (s := s) hcanonical he).signed_bounds
        rw [fit, if_neg (not_lt.mpr he)]
        exact congrArg some (clamp_eq (abs_le.mpr ⟨hbounds.1.le, hbounds.2.le⟩)).symm

/-- An answer in canonical form is packed and unpacked as it is, if it is not too
large. -/
theorem value_ofModel_pack (h : InForm f) :
    value (.ofModel (.pack f)) = (number f).map clamp := by
  have hunpack : (Float.ofModel (.pack f)).toModel.unpack = fit f := unpack_pack h
  rw [value, hunpack, number_fit h]

/-! ## Rounding the exact answer -/

/-- A smaller exponent makes a larger mantissa. -/
theorem decreaseExponent_eq (m : ℕ) (e t : ℤ) :
    ((decreaseExponent m e t).1 : ℚ) * 2 ^ (decreaseExponent m e t).2 = m * 2 ^ e := by
  show ((m <<< (e - t).toNat : ℕ) : ℚ) * 2 ^ (e - (e - t).toNat) = m * 2 ^ e
  rw [Nat.shiftLeft_eq, zpow_sub₀ (by norm_num), zpow_natCast]
  push_cast
  field_simp

theorem decreaseExponent_of_le {t : ℤ} (m : ℕ) (h : t ≤ e) :
    (decreaseExponent m e t).2 = t := by
  show e - (e - t).toNat = t
  omega

theorem decreaseExponent_le (m : ℕ) (e t : ℤ) : (decreaseExponent m e t).2 ≤ t := by
  show e - (e - t).toNat ≤ t
  omega

theorem decreaseExponent_pos (hm : 0 < m) (e t : ℤ) : 0 < (decreaseExponent m e t).1 := by
  show 0 < m <<< (e - t).toNat
  rw [Nat.shiftLeft_eq]
  positivity

theorem round_eq (s : Sign) (hm : 0 < m) (e : ℤ) :
    InForm (UnpackedFloat.round Format.binary64 s m e)
      ∧ number (UnpackedFloat.round Format.binary64 s m e)
        = some (signed s (nearest (m * 2 ^ e))) := by
  have hle := decreaseExponent_le m e (quantum (m * 2 ^ e))
  have hpos := decreaseExponent_pos hm e (quantum (m * 2 ^ e))
  have hvalue := decreaseExponent_eq m e (quantum (m * 2 ^ e))
  simp only [UnpackedFloat.round, targetExponent_eq_quantum hm]
  generalize decreaseExponent m e (quantum (m * 2 ^ e)) = d at *
  have hspec := roundWithAccuracy_exact s hpos (by rwa [hvalue])
  rw [hvalue] at hspec
  exact hspec

theorem normalize_eq (n e : ℤ) (z : Sign) :
    InForm (UnpackedFloat.normalize Format.binary64 n e z)
      ∧ number (UnpackedFloat.normalize Format.binary64 n e z) = some (nearest (n * 2 ^ e)) := by
  rcases lt_trichotomy n 0 with hneg | rfl | hpos
  · have hcompare : compare n 0 = .lt := compare_lt_iff_lt.mpr hneg
    have hsize : ((-n).toNat : ℚ) = -n := by
      exact_mod_cast congrArg (Int.cast : ℤ → ℚ) (Int.toNat_of_nonneg (by omega : 0 ≤ -n))
    have hspec := round_eq .negative (by omega : 0 < (-n).toNat) e
    rw [hsize, neg_mul, nearest_neg, signed, neg_neg] at hspec
    rw [UnpackedFloat.normalize, hcompare]
    exact hspec
  · rw [UnpackedFloat.normalize, compare_eq_iff_eq.mpr rfl]
    simp [InForm, number]
  · have hcompare : compare n 0 = .gt := compare_gt_iff_gt.mpr hpos
    have hsize : (n.toNat : ℚ) = n := by
      exact_mod_cast congrArg (Int.cast : ℤ → ℚ) (Int.toNat_of_nonneg (by omega : 0 ≤ n))
    have hspec := round_eq .positive (by omega : 0 < n.toNat) e
    rw [hsize] at hspec
    rw [UnpackedFloat.normalize, hcompare]
    exact hspec

/-! ## Sums and differences -/

theorem apply_natCast (s : Sign) (n : ℕ) : ((s.apply n : ℤ) : ℚ) = signed s n := by
  cases s
  · exact Int.cast_neg _
  · rfl

theorem signed_mul (s : Sign) (a b : ℚ) : signed s a * b = signed s (a * b) := by
  cases s
  · exact neg_mul a b
  · rfl

theorem nearest_number (h : Fits f) (hp : number f = some p) (hfinite : f.isFinite = true) :
    nearest p = p := by
  cases f with
  | notANumber => cases hp
  | infinity s => cases hfinite
  | zero s =>
      cases hp
      exact nearest_zero
  | finite s m e hm =>
      cases hp
      rw [nearest_signed, h.finite.1.nearest_eq]

theorem add_eq (hf : Fits f) (hg : Fits g) (hff : f.isFinite = true) (hgf : g.isFinite = true)
    (hp : number f = some p) (hq : number g = some q) :
    InForm (UnpackedFloat.add Format.binary64 f g)
      ∧ number (UnpackedFloat.add Format.binary64 f g) = some (nearest (p + q)) := by
  have hpn := nearest_number hf hp hff
  have hqn := nearest_number hg hq hgf
  cases f with
  | notANumber => cases hff
  | infinity s => cases hff
  | zero s =>
      cases hp
      rw [zero_add, hqn]
      cases g with
      | notANumber => cases hgf
      | infinity s' => cases hgf
      | zero s' =>
          cases hq
          cases s <;> cases s' <;> exact ⟨trivial, rfl⟩
      | finite s' m' e' hm' => exact ⟨hg.form, hq⟩
  | finite s m e hm =>
      cases g with
      | notANumber => cases hgf
      | infinity s' => cases hgf
      | zero s' =>
          cases hq
          rw [add_zero, hpn]
          exact ⟨hf.form, hp⟩
      | finite s' m' e' hm' =>
          cases hp
          cases hq
          have hleft := decreaseExponent_eq m e (min e e')
          have hright := decreaseExponent_eq m' e' (min e e')
          rw [decreaseExponent_of_le m (min_le_left ..)] at hleft
          rw [decreaseExponent_of_le m' (min_le_right ..)] at hright
          have hspec := normalize_eq (s.apply (decreaseExponent m e (min e e')).1
            + s'.apply (decreaseExponent m' e' (min e e')).1) (min e e') .positive
          rw [Int.cast_add, apply_natCast, apply_natCast, add_mul, signed_mul, signed_mul,
            hleft, hright] at hspec
          exact hspec

theorem add_of_infinite (hff : ¬ f.isFinite = true) (hp : number f = some p)
    (hgf : g.isFinite = true) :
    InForm (UnpackedFloat.add Format.binary64 f g)
      ∧ number (UnpackedFloat.add Format.binary64 f g) = some p := by
  cases f with
  | notANumber => cases hp
  | infinity s =>
      cases g with
      | notANumber => cases hgf
      | infinity s' => cases hgf
      | zero s' => exact ⟨trivial, hp⟩
      | finite s' m' e' hm' => exact ⟨trivial, hp⟩
  | zero s => exact absurd rfl hff
  | finite s m e hm => exact absurd rfl hff

theorem signed_neg (s : Sign) (q : ℚ) : signed (-s) q = -signed s q := by
  cases s
  · exact (neg_neg q).symm
  · rfl

theorem number_neg (f : UnpackedFloat) : number f.neg = (number f).map Neg.neg := by
  cases f with
  | notANumber => rfl
  | infinity s => exact congrArg some (signed_neg s tooLarge)
  | zero s => exact congrArg some neg_zero.symm
  | finite s m e hm => exact congrArg some (signed_neg s (m * 2 ^ e))

theorem fits_neg (h : Fits f) : Fits f.neg := by
  cases f with
  | finite s m e hm => exact fits_finite h.finite.1 h.finite.2
  | _ => exact ⟨trivial, rfl⟩

theorem unpacked_sub_eq (f g : UnpackedFloat) :
    UnpackedFloat.sub Format.binary64 f g = UnpackedFloat.add Format.binary64 f g.neg := by
  cases f <;> cases g <;> try rfl
  case finite.finite s m e hm s' m' e' hm' =>
    have hneg (n : ℤ) : (-s').apply n = -s'.apply n := by
      cases s'
      · exact (Int.neg_neg n).symm
      · rfl
    simp only [UnpackedFloat.sub, UnpackedFloat.add, UnpackedFloat.neg, hneg, Int.sub_eq_add_neg]

/-! ## Products -/

theorem signed_mul_signed (s s' : Sign) (a b : ℚ) :
    signed (s * s') (a * b) = signed s a * signed s' b := by
  cases s <;> cases s'
  · exact (neg_mul_neg a b).symm
  · exact (neg_mul a b).symm
  · exact (mul_neg a b).symm
  · rfl

/-- A product of mantissas has enough bits, or its exponent is small enough. -/
theorem Canonical.add_le_quantum {m' : ℕ} {e' : ℤ} (h : Canonical m e) (h' : Canonical m' e') :
    e + e' ≤ quantum ((m * m' : ℕ) * 2 ^ (e + e')) := by
  have hm := h.pos
  have hm' := h'.pos
  have hpos : 0 < m * m' := Nat.mul_pos hm hm'
  have hsize : (0 : ℚ) < (m * m' : ℕ) * 2 ^ (e + e') := by positivity
  rw [quantum, abs_of_pos hsize, log_natCast_mul_two_pow hpos]
  by_cases hfull : 2 ^ 52 ≤ m * m'
  · have hlog := (Nat.le_log2 hpos.ne').mpr hfull
    omega
  · have hle := Nat.le_mul_of_pos_right m hm'
    have hle' := Nat.le_mul_of_pos_left m' hm
    have he := h.full.resolve_right (by omega)
    have he' := h'.full.resolve_right (by omega)
    omega

theorem mul_eq (hf : Fits f) (hg : Fits g) (hff : f.isFinite = true) (hgf : g.isFinite = true)
    (hp : number f = some p) (hq : number g = some q) :
    InForm (UnpackedFloat.mul Format.binary64 f g)
      ∧ number (UnpackedFloat.mul Format.binary64 f g) = some (nearest (p * q)) := by
  cases f with
  | notANumber => cases hff
  | infinity s => cases hff
  | zero s =>
      cases hp
      rw [zero_mul, nearest_zero]
      cases g with
      | notANumber => cases hgf
      | infinity s' => cases hgf
      | zero s' => exact ⟨trivial, rfl⟩
      | finite s' m' e' hm' => exact ⟨trivial, rfl⟩
  | finite s m e hm =>
      cases hp
      cases g with
      | notANumber => cases hgf
      | infinity s' => cases hgf
      | zero s' =>
          cases hq
          rw [mul_zero, nearest_zero]
          exact ⟨trivial, rfl⟩
      | finite s' m' e' hm' =>
          cases hq
          have hspec := roundWithAccuracy_exact (s * s') (Nat.mul_pos hm hm')
            (hf.finite.1.add_le_quantum hg.finite.1)
          have hvalue : ((m * m' : ℕ) : ℚ) * 2 ^ (e + e') = m * 2 ^ e * (m' * 2 ^ e') := by
            rw [zpow_add₀ (by norm_num), Nat.cast_mul]
            ring
          rw [hvalue, ← nearest_signed, signed_mul_signed] at hspec
          exact hspec

/-! ## Doubles -/

theorem abs_value_le (hp : value x = some p) : |p| ≤ tooLarge := by
  have htop := tooLarge_pos
  have hfits := fits_toModel x
  unfold value at hp
  generalize x.toModel.unpack = f at hp hfits
  cases f with
  | notANumber => cases hp
  | infinity s =>
      cases hp
      cases s
      · rw [signed, abs_neg, abs_of_pos htop]
      · rw [signed, abs_of_pos htop]
  | zero s =>
      cases hp
      rw [abs_zero]
      exact htop.le
  | finite s m e hm =>
      cases hp
      obtain ⟨hge, hle⟩ := hfits.signed_bounds
      exact abs_le.mpr ⟨hge.le, hle.le⟩

theorem unpack_ofModel_pack (h : InForm f) :
    (Float.ofModel (.pack f)).toModel.unpack = fit f :=
  unpack_pack h

theorem unpack_neg (x : Float) : (-x).toModel.unpack = x.toModel.unpack.neg := by
  have hfits := fits_neg (fits_toModel x)
  exact (unpack_ofModel_pack hfits.form).trans hfits.fit_eq

theorem value_neg (x : Float) : value (-x) = (value x).map Neg.neg := by
  rw [value, unpack_neg, number_neg, value]

theorem isFinite_neg (x : Float) : (-x).isFinite = x.isFinite := by
  show (-x).toModel.unpack.isFinite = x.toModel.unpack.isFinite
  rw [unpack_neg]
  cases x.toModel.unpack <;> rfl

theorem sub_eq_add_opposite (x y : Float) : x - y = x + -y := by
  have hsub := congrArg (Float.ofModel <| .pack ·)
    (unpacked_sub_eq x.toModel.unpack y.toModel.unpack)
  rw [← unpack_neg] at hsub
  exact hsub

theorem value_add (hx : x.isFinite = true) (hy : y.isFinite = true) (hp : value x = some p)
    (hq : value y = some q) : value (x + y) = some (clamp (nearest (p + q))) := by
  obtain ⟨hform, hnumber⟩ := add_eq (fits_toModel x) (fits_toModel y) hx hy hp hq
  exact (value_ofModel_pack hform).trans (congrArg (Option.map clamp) hnumber)

/-- An infinity stays what it is when something finite is added. -/
theorem value_add_of_infinite (hx : ¬ x.isFinite = true) (hp : value x = some p)
    (hy : y.isFinite = true) : value (x + y) = some p := by
  obtain ⟨hform, hnumber⟩ := add_of_infinite hx hp hy
  rw [show value (x + y) = _ from value_ofModel_pack hform, hnumber]
  exact congrArg some (clamp_eq (abs_value_le hp))

theorem value_sub (hx : x.isFinite = true) (hy : y.isFinite = true) (hp : value x = some p)
    (hq : value y = some q) : value (x - y) = some (clamp (nearest (p - q))) := by
  have hneg : value (-y) = some (-q) := by
    rw [value_neg, hq]
    rfl
  rw [sub_eq_add_opposite, sub_eq_add_neg]
  exact value_add hx (by rwa [isFinite_neg]) hp hneg

theorem value_mul (hx : x.isFinite = true) (hy : y.isFinite = true) (hp : value x = some p)
    (hq : value y = some q) : value (x * y) = some (clamp (nearest (p * q))) := by
  obtain ⟨hform, hnumber⟩ := mul_eq (fits_toModel x) (fits_toModel y) hx hy hp hq
  exact (value_ofModel_pack hform).trans (congrArg (Option.map clamp) hnumber)

end Graticule.Binary64
