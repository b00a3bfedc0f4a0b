import Mathlib.Analysis.SpecialFunctions.Complex.Arg
import Mathlib.Analysis.SpecialFunctions.Trigonometric.Inverse
import Graticule.Sphere

/-!
# The sphere in real numbers

Over the reals the functions of angles are what their names say, so what the
library computes there is what it is meant to compute. A distance is an arc, found
from half the chord: the square of half the chord is the `haversine`, and the arc
tangent of its root and of the root of its complement is half the arc. Both roots
are sides of one right triangle, so a longer chord is a longer arc, and distances
compare as haversines do, in any unit.

There is no infinite number to be the bound above every distance. Ten thousand
million will do, since half the way around the globe is a fifth of that in the
smallest unit.
-/

namespace Graticule

noncomputable instance : Scalar ℝ where
  ofNat n := n
  decLt := inferInstance
  decLe := inferInstance
  same a b := a == b
  digest _ := 0

noncomputable instance : Trig ℝ where
  sin := Real.sin
  cos := Real.cos
  asin := Real.arcsin
  atan2 y x := Complex.arg ⟨x, y⟩
  sqrt := Real.sqrt
  hypot x y := √(x ^ 2 + y ^ 2)
  radians x := x * (Real.pi / 180)
  degrees x := x * (180 / Real.pi)
  pi := Real.pi
  rem x y := x - y * (if 0 ≤ x / y then (⌊x / y⌋ : ℝ) else ⌈x / y⌉)
  infinity := 10 ^ 10

/-! The literals of a scalar, at the reals. -/

theorem real_ofNat (n : Nat) : @OfNat.ofNat ℝ n (Scalar.instOfNat n) = n := rfl

theorem real_one : @OfNat.ofNat ℝ 1 (Scalar.instOfNat 1) = 1 := Nat.cast_one

namespace Sphere

/-- An angle in degrees, in radians. -/
noncomputable def rad (x : ℝ) : ℝ := x * (Real.pi / 180)

theorem rad_le_rad_iff {x y : ℝ} : rad x ≤ rad y ↔ x ≤ y := by
  have hpos : 0 < Real.pi / 180 := by positivity
  exact mul_le_mul_iff_left₀ hpos

/-- The square of half the chord between two points, on a sphere of radius one. -/
noncomputable def haversine (p q : Point ℝ) : ℝ :=
  Real.sin (rad (q.latitude - p.latitude) / 2) ^ 2
    + Real.sin (rad (q.longitude - p.longitude) / 2) ^ 2
      * Real.cos (rad p.latitude) * Real.cos (rad q.latitude)

theorem distance_eq (p q : Point ℝ) (unit : LengthUnit) :
    distance p q unit
      = 2 * Complex.arg ⟨√(1 - haversine p q), √(haversine p q)⟩ * unit.perRadian := by
  rw [haversine, pow_two, pow_two, ← real_one]
  rfl

theorem perRadian_pos (unit : LengthUnit) : (0 : ℝ) < unit.perRadian := by
  cases unit <;> simp only [LengthUnit.perRadian, real_ofNat] <;> norm_num

/-- Half an arc is the arc sine of half its chord. -/
theorem arg_eq_arcsin {a : ℝ} (h₀ : 0 ≤ a) (h₁ : a ≤ 1) :
    Complex.arg ⟨√(1 - a), √a⟩ = Real.arcsin √a := by
  have hnorm : ‖(⟨√(1 - a), √a⟩ : ℂ)‖ = 1 := by
    rw [Complex.norm_eq_sqrt_sq_add_sq, Real.sq_sqrt h₀, Real.sq_sqrt (sub_nonneg.mpr h₁),
      sub_add_cancel, Real.sqrt_one]
  rw [Complex.arg_of_re_nonneg (Real.sqrt_nonneg _), hnorm, div_one]

theorem distance_le_distance_iff {p q r s : Point ℝ} (unit : LengthUnit)
    (hpq : 0 ≤ haversine p q ∧ haversine p q ≤ 1)
    (hrs : 0 ≤ haversine r s ∧ haversine r s ≤ 1) :
    distance p q unit ≤ distance r s unit ↔ haversine p q ≤ haversine r s := by
  have hroot {a : ℝ} (h : 0 ≤ a ∧ a ≤ 1) : √a ∈ Set.Icc (-1 : ℝ) 1 :=
    ⟨neg_one_lt_zero.le.trans (Real.sqrt_nonneg a), Real.sqrt_le_one.mpr h.2⟩
  rw [distance_eq, distance_eq, mul_le_mul_iff_left₀ (perRadian_pos unit),
    mul_le_mul_iff_right₀ two_pos, arg_eq_arcsin hpq.1 hpq.2, arg_eq_arcsin hrs.1 hrs.2,
    Real.strictMonoOn_arcsin.le_iff_le (hroot hpq) (hroot hrs), Real.sqrt_le_sqrt_iff hrs.1]

end Sphere

end Graticule
