import Graticule.Proofs.Binary64.Arithmetic
import Graticule.Proofs.Ordered
import Graticule.Scalar.Binary64

/-!
# Doubles in order

Doubles obey the laws of scalars with an order. Two of them have a reason that
is not plain from the numbers: the difference of two finite doubles is a whole
multiple of the least one above zero, so it is rounded to zero only if it is
zero, and sums keep the order because rounding does.
-/

namespace Graticule.Binary64

open Float.Model
open Float.Model.UnpackedFloat hiding pack unpack

variable {f g : UnpackedFloat} {p q : ℚ} {x y c d lo hi : Float}

/-! ## Differences -/

theorem clamp_eq_zero (h : clamp q = 0) : q = 0 := by
  have htop := tooLarge_pos
  rw [clamp] at h
  rcases max_choice (-tooLarge) (min q tooLarge) with hmax | hmax
  · linarith
  · rcases min_choice q tooLarge with hmin | hmin <;> linarith

/-- A finite double is a whole multiple of the least one above zero. -/
theorem exists_eq_mul (h : Fits f) (hfinite : f.isFinite = true) (hp : number f = some p) :
    ∃ n : ℤ, p = n * 2 ^ (-1074 : ℤ) := by
  cases f with
  | notANumber => cases hfinite
  | infinity s => cases hfinite
  | zero s =>
      cases hp
      exact ⟨0, by simp⟩
  | finite s m e hm =>
      cases hp
      obtain ⟨k, hk⟩ := Int.le.dest h.finite.1.least
      refine ⟨s.apply m * 2 ^ k, ?_⟩
      rw [Int.cast_mul, apply_natCast, signed_mul, signed_mul, ← hk,
        zpow_add₀ (by norm_num), zpow_natCast, Int.cast_pow, Int.cast_ofNat, mul_assoc,
        mul_comm ((2 : ℚ) ^ k)]

theorem nearest_mul_ne_zero {n : ℤ} (h : n ≠ 0) : nearest (n * 2 ^ (-1074 : ℤ)) ≠ 0 := by
  have hleast : (0 : ℚ) < 2 ^ (-1074 : ℤ) := by positivity
  rcases lt_or_gt_of_ne h with hneg | hpos
  · have hone : (1 : ℚ) ≤ -n := by exact_mod_cast (by omega : 1 ≤ -n)
    have hmirror := nearest_pos (le_mul_of_one_le_left hleast.le hone)
    rw [neg_mul, nearest_neg] at hmirror
    exact (neg_pos.mp hmirror).ne
  · have hone : (1 : ℚ) ≤ n := by exact_mod_cast (by omega : 1 ≤ n)
    exact (nearest_pos (le_mul_of_one_le_left hleast.le hone)).ne'

theorem sub_of_not_finite (h : ¬ (f.isFinite = true ∧ g.isFinite = true)) :
    UnpackedFloat.sub Format.binary64 f g = .notANumber
      ∨ ∃ s, UnpackedFloat.sub Format.binary64 f g = .infinity s := by
  cases f with
  | notANumber => exact .inl rfl
  | infinity s =>
      cases g with
      | notANumber => exact .inl rfl
      | infinity s' => cases s <;> cases s' <;> first | exact .inl rfl | exact .inr ⟨_, rfl⟩
      | zero s' => exact .inr ⟨_, rfl⟩
      | finite s' m' e' hm' => exact .inr ⟨_, rfl⟩
  | zero s =>
      cases g with
      | notANumber => exact .inl rfl
      | infinity s' => exact .inr ⟨_, rfl⟩
      | zero s' => exact absurd ⟨rfl, rfl⟩ h
      | finite s' m' e' hm' => exact absurd ⟨rfl, rfl⟩ h
  | finite s m e hm =>
      cases g with
      | notANumber => exact .inl rfl
      | infinity s' => exact .inr ⟨_, rfl⟩
      | zero s' => exact absurd ⟨rfl, rfl⟩ h
      | finite s' m' e' hm' => exact absurd ⟨rfl, rfl⟩ h

theorem value_sub_ne_zero (h : ¬ (x.isFinite = true ∧ y.isFinite = true)) :
    value (x - y) ≠ some 0 := by
  have htop := tooLarge_pos
  rcases sub_of_not_finite h with hsub | ⟨s, hsub⟩
  · have hvalue : value (x - y) = none :=
      (congrArg (value <| Float.ofModel <| .pack ·) hsub).trans (value_ofModel_pack trivial)
    rw [hvalue]
    simp
  · have hvalue : value (x - y) = some (clamp (signed s tooLarge)) :=
      (congrArg (value <| Float.ofModel <| .pack ·) hsub).trans (value_ofModel_pack trivial)
    rw [hvalue, Ne, Option.some.injEq]
    intro hzero
    have hsigned := clamp_eq_zero hzero
    cases s
    · exact htop.ne' (neg_eq_zero.mp hsigned)
    · exact htop.ne' hsigned

theorem exists_value (hx : x.isFinite = true) : ∃ p, value x = some p ∧ |p| < tooLarge :=
  isFinite_iff.mp hx

theorem isFinite_of_value_eq (hx : x.isFinite = true) (h : value x = value y) :
    y.isFinite = true := by
  rw [isFinite_iff, h] at hx
  exact isFinite_iff.mpr hx

/-- A difference is zero between equal finite doubles only. -/
theorem value_sub_eq_zero_iff :
    value (x - y) = some 0 ↔ x.isFinite = true ∧ value x = value y := by
  have htop := tooLarge_pos
  constructor
  · intro hzero
    obtain ⟨hx, hy⟩ : x.isFinite = true ∧ y.isFinite = true :=
      Classical.byContradiction fun h => value_sub_ne_zero h hzero
    refine ⟨hx, ?_⟩
    obtain ⟨p, hp, -⟩ := exists_value hx
    obtain ⟨q, hq, -⟩ := exists_value hy
    obtain ⟨n, hn⟩ := exists_eq_mul (fits_toModel x) hx hp
    obtain ⟨k, hk⟩ := exists_eq_mul (fits_toModel y) hy hq
    rw [value_sub hx hy hp hq, Option.some.injEq] at hzero
    have hnearest := clamp_eq_zero hzero
    rw [hn, hk, ← sub_mul, ← Int.cast_sub] at hnearest
    have hnk : n - k = 0 := Classical.byContradiction fun h => nearest_mul_ne_zero h hnearest
    rw [hp, hq, hn, hk, sub_eq_zero.mp hnk]
  · rintro ⟨hx, heq⟩
    have hy := isFinite_of_value_eq hx heq
    obtain ⟨p, hp, -⟩ := exists_value hx
    rw [value_sub hx hy hp (heq ▸ hp), sub_self, nearest_zero,
      clamp_eq (by rw [abs_zero]; exact htop.le)]

/-! ## The laws -/

theorem value_zero : value (0 : Float) = some 0 := rfl

theorem beq_zero_iff : (x == 0) = true ↔ value x = some 0 := by
  rw [beq_iff]
  constructor
  · rintro ⟨p, q, hp, hq, rfl⟩
    rw [hp, ← hq]
    rfl
  · exact fun h => ⟨0, 0, h, value_zero, rfl⟩

theorem isNaN_iff_value : Scalar.isNaN x = true ↔ value x = none := by
  have hself : Scalar.isNaN x = !(x == x) := rfl
  rw [hself, Bool.not_eq_true', Bool.eq_false_iff, Ne, beq_iff]
  cases value x <;> simp

theorem scalar_isNaN_iff : Scalar.isNaN x = true ↔ x.isNaN = true := by
  have hmodel : x.isNaN = x.toModel.unpack.isNaN := rfl
  rw [isNaN_iff_value, hmodel, value]
  cases x.toModel.unpack <;> simp [number, UnpackedFloat.isNaN]

theorem scalar_isFinite_iff : Scalar.isFinite x = true ↔ x.isFinite = true := by
  have hcancel : Scalar.isFinite x = true ↔ value (x - x) = some 0 := beq_zero_iff
  rw [hcancel, value_sub_eq_zero_iff]
  exact and_iff_left rfl

theorem le_iff_of_value (hp : value x = some p) (hq : value y = some q) : x ≤ y ↔ p ≤ q := by
  simp [le_iff, hp, hq]

theorem le_iff_of_left (hp : value x = some p) :
    x ≤ y ↔ ∃ q, value y = some q ∧ p ≤ q := by
  simp [le_iff, hp]

theorem lt_iff_of_left (hp : value x = some p) :
    x < y ↔ ∃ q, value y = some q ∧ p < q := by
  simp [lt_iff, hp]

theorem isFinite_iff_of_value (hp : value x = some p) : x.isFinite = true ↔ |p| < tooLarge := by
  simp [isFinite_iff, hp]

theorem neg_tooLarge_le_clamp (q : ℚ) : -tooLarge ≤ clamp q := le_max_left ..

theorem clamp_le_tooLarge (q : ℚ) : clamp q ≤ tooLarge := by
  have htop := tooLarge_pos
  exact max_le (by linarith) (min_le_right ..)

/-- The sum of a number a double can stand for and a finite one. -/
def plus (p r : ℚ) : ℚ := if |p| < tooLarge then clamp (nearest (p + r)) else p

theorem value_add_eq_plus {r : ℚ} (hd : d.isFinite = true) (hp : value x = some p)
    (hr : value d = some r) : value (x + d) = some (plus p r) := by
  unfold plus
  split_ifs with hlt
  · exact value_add ((isFinite_iff_of_value hp).mpr hlt) hd hp hr
  · exact value_add_of_infinite ((isFinite_iff_of_value hp).not.mpr hlt) hp hd

theorem plus_mono {r : ℚ} (h : p ≤ q) (hp : |p| ≤ tooLarge) (hq : |q| ≤ tooLarge) :
    plus p r ≤ plus q r := by
  unfold plus
  split_ifs with hpLt hqLt hqLt
  · exact clamp_mono (nearest_mono (by linarith))
  · have hgt := (abs_lt.mp hpLt).1
    rcases eq_or_eq_neg_of_abs_eq (le_antisymm hq (not_lt.mp hqLt)) with htop | hbottom
    · rw [htop]
      exact clamp_le_tooLarge _
    · linarith
  · have hlt := (abs_lt.mp hqLt).2
    rcases eq_or_eq_neg_of_abs_eq (le_antisymm hp (not_lt.mp hpLt)) with htop | hbottom
    · linarith
    · rw [hbottom]
      exact neg_tooLarge_le_clamp _
  · exact h

/-- Sums with something finite keep the order. -/
theorem add_le_add_right (h : x ≤ y) (hd : d.isFinite = true) : x + d ≤ y + d := by
  obtain ⟨p, q, hp, hq, hle⟩ := le_iff.mp h
  obtain ⟨r, hr, -⟩ := exists_value hd
  rw [le_iff_of_value (value_add_eq_plus hd hp hr) (value_add_eq_plus hd hq hr)]
  exact plus_mono hle (abs_value_le hp) (abs_value_le hq)

instance : OrderedScalar Float where
  le_trans {a b c} hab hbc := by
    obtain ⟨p, q, hp, hq, hpq⟩ := le_iff.mp hab
    obtain ⟨r, hr, hqr⟩ := (le_iff_of_left hq).mp hbc
    exact le_iff.mpr ⟨p, r, hp, hr, hpq.trans hqr⟩
  le_refl_left {a b} hab := by
    obtain ⟨p, -, hp, -, -⟩ := le_iff.mp hab
    exact le_iff.mpr ⟨p, p, hp, hp, le_rfl⟩
  le_refl_right {a b} hab := by
    obtain ⟨-, q, -, hq, -⟩ := le_iff.mp hab
    exact le_iff.mpr ⟨q, q, hq, hq, le_rfl⟩
  le_total {a b} ha hb := by
    obtain ⟨p, -, hp, -, -⟩ := le_iff.mp ha
    obtain ⟨q, -, hq, -, -⟩ := le_iff.mp hb
    rw [le_iff_of_value hp hq, le_iff_of_value hq hp]
    exact le_total p q
  lt_iff {a b} := by
    rw [lt_iff]
    constructor
    · rintro ⟨p, q, hp, hq, hlt⟩
      rw [le_iff_of_value hp hq, le_iff_of_value hq hp]
      exact ⟨hlt.le, not_le.mpr hlt⟩
    · rintro ⟨hle, hnot⟩
      obtain ⟨p, q, hp, hq, -⟩ := le_iff.mp hle
      rw [le_iff_of_value hq hp] at hnot
      exact ⟨p, q, hp, hq, not_le.mp hnot⟩
  beq_iff {a b} := by
    rw [beq_iff]
    constructor
    · rintro ⟨p, q, hp, hq, rfl⟩
      rw [le_iff_of_value hp hq, le_iff_of_value hq hp]
      exact ⟨le_rfl, le_rfl⟩
    · rintro ⟨hle, hge⟩
      obtain ⟨p, q, hp, hq, hpq⟩ := le_iff.mp hle
      rw [le_iff_of_value hq hp] at hge
      exact ⟨p, q, hp, hq, le_antisymm hpq hge⟩
  sub_beq_zero_iff {a b} := by
    rw [beq_zero_iff, value_sub_eq_zero_iff, scalar_isFinite_iff]
    constructor
    · rintro ⟨ha, heq⟩
      obtain ⟨p, hp, -⟩ := exists_value ha
      rw [le_iff_of_value hp (heq ▸ hp), le_iff_of_value (heq ▸ hp) hp]
      exact ⟨le_rfl, le_rfl, ha⟩
    · rintro ⟨hle, hge, ha⟩
      obtain ⟨p, q, hp, hq, hpq⟩ := le_iff.mp hle
      rw [le_iff_of_value hq hp] at hge
      rw [hp, hq, le_antisymm hpq hge]
      exact ⟨ha, rfl⟩
  isFinite_zero := rfl
  neg_zero_le := by decide
  zero_le_neg := by decide
  isFinite_of_lt {a b c} ha hab hbc := by
    obtain ⟨p, q, hp, hq, hpq⟩ := le_iff.mp hab
    obtain ⟨r, hr, hqr⟩ := (lt_iff_of_left hq).mp hbc
    rw [scalar_isFinite_iff, isFinite_iff_of_value hp] at ha
    rw [scalar_isFinite_iff, isFinite_iff_of_value hq]
    have hr' := abs_le.mp (abs_value_le hr)
    exact abs_lt.mpr ⟨(abs_lt.mp ha).1.trans_le hpq, hqr.trans_le hr'.2⟩
  isFinite_of_le {a b c} ha hab hbc hc := by
    obtain ⟨p, q, hp, hq, hpq⟩ := le_iff.mp hab
    obtain ⟨r, hr, hqr⟩ := (le_iff_of_left hq).mp hbc
    rw [scalar_isFinite_iff, isFinite_iff_of_value hp] at ha
    rw [scalar_isFinite_iff, isFinite_iff_of_value hr] at hc
    rw [scalar_isFinite_iff, isFinite_iff_of_value hq]
    exact abs_lt.mpr ⟨(abs_lt.mp ha).1.trans_le hpq, hqr.trans_lt (abs_lt.mp hc).2⟩
  add_le_add_right {a b d} hab hd := add_le_add_right hab (scalar_isFinite_iff.mp hd)

/-! ## Bounds -/

theorem isFinite_of_between (hlo : lo.isFinite = true) (hhi : hi.isFinite = true)
    (h : lo ≤ x ∧ x ≤ hi) : x.isFinite = true := by
  rw [← scalar_isFinite_iff] at hlo hhi ⊢
  exact OrderedScalar.isFinite_of_le hlo h.1 h.2 hhi

theorem unpack_of_isNaN (h : x.isNaN = true) : x.toModel.unpack = .notANumber := by
  have hmodel : x.toModel.unpack.isNaN = true := h
  cases hf : x.toModel.unpack <;> rw [hf] at hmodel <;> first | rfl | cases hmodel

theorem not_isNaN_of_isFinite (h : x.isFinite = true) : ¬ x.isNaN = true := by
  intro hnan
  have hmodel : x.toModel.unpack.isFinite = true := h
  rw [unpack_of_isNaN hnan] at hmodel
  cases hmodel

theorem isNaN_mul (h : x.isNaN = true ∨ y.isNaN = true) : (x * y).isNaN = true := by
  have hproduct : UnpackedFloat.mul Format.binary64 x.toModel.unpack y.toModel.unpack
      = .notANumber := by
    rcases h with h | h
    · rw [unpack_of_isNaN h]
      cases y.toModel.unpack <;> rfl
    · rw [unpack_of_isNaN h]
      cases x.toModel.unpack <;> rfl
  show (Float.ofModel (.pack (UnpackedFloat.mul Format.binary64 _ _))).toModel.unpack.isNaN
    = true
  rw [hproduct]
  rfl

/-- Sums keep the order on both sides. -/
theorem add_le_add {z w : Float} (h : x ≤ y) (h' : z ≤ w) (hy : y.isFinite = true)
    (hz : z.isFinite = true) (hw : w.isFinite = true) : x + z ≤ y + w := by
  obtain ⟨p, q, hp, hq, hle⟩ := le_iff.mp h'
  obtain ⟨r, hr, -⟩ := exists_value hy
  have hright : y + z ≤ y + w := by
    rw [le_iff_of_value (value_add hy hz hr hp) (value_add hy hw hr hq)]
    exact clamp_mono (nearest_mono (by linarith))
  exact OrderedScalar.le_trans (add_le_add_right h hz) hright

/-- Products with something finite that is not below zero keep the order. -/
theorem mul_le_mul_left (h : x ≤ y) (hx : x.isFinite = true) (hy : y.isFinite = true)
    (hc : c.isFinite = true) (hzero : 0 ≤ c) : c * x ≤ c * y := by
  obtain ⟨p, q, hp, hq, hle⟩ := le_iff.mp h
  obtain ⟨r, hr, hnonneg⟩ := (le_iff_of_left value_zero).mp hzero
  rw [le_iff_of_value (value_mul hc hx hr hp) (value_mul hc hy hr hq)]
  exact clamp_mono (nearest_mono (mul_le_mul_of_nonneg_left hle hnonneg))

theorem mul_le_mul_right (h : x ≤ y) (hx : x.isFinite = true) (hy : y.isFinite = true)
    (hc : c.isFinite = true) (hzero : 0 ≤ c) : x * c ≤ y * c := by
  obtain ⟨p, q, hp, hq, hle⟩ := le_iff.mp h
  obtain ⟨r, hr, hnonneg⟩ := (le_iff_of_left value_zero).mp hzero
  rw [le_iff_of_value (value_mul hx hc hp hr) (value_mul hy hc hq hr)]
  exact clamp_mono (nearest_mono (mul_le_mul_of_nonneg_right hle hnonneg))

end Graticule.Binary64
