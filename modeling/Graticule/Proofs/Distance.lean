import Graticule.Proofs.Ordered
import Graticule.Scalar.Exact
import Graticule.Simplify
import Mathlib.Tactic.Linarith
import Mathlib.Tactic.LinearCombination
import Mathlib.Tactic.Positivity
import Mathlib.Tactic.Ring

/-!
# Planar distances in exact arithmetic

Over the rationals the deviation of a point from a segment is what its name
says: the least square distance to a point of the segment. The line through the
segment is run through by a fraction, zero at the start and one at the stop,
and along it the square distance to the point is a parabola whose vertex is the
`projection`. The three branches of the deviation are the three places the
fraction closest to the vertex can be in.

A segment of no length needs no case of its own. Its projection is a division
by zero, which is zero, and every fraction of it is the same point.
-/

namespace Graticule

/-! The literals, the numeric equality and the order of a scalar, at the rationals. -/

theorem exact_zero : @OfNat.ofNat Rat 0 (Scalar.instOfNat 0) = 0 := rfl

theorem exact_one : @OfNat.ofNat Rat 1 (Scalar.instOfNat 1) = 1 := rfl

theorem exact_beq (a b : Rat) : @BEq.beq Rat Scalar.toBEq a b = decide (a = b) := rfl

theorem exact_isNaN (a : Rat) : Scalar.isNaN a = false := by
  rw [Scalar.isNaN, exact_beq, decide_eq_true rfl, Bool.not_true]

instance : StrictlyOrdered Rat where
  lt_irrefl := lt_irrefl _
  lt_trans := lt_trans
  lt_or_lt {a b _} h _ := (lt_or_ge a b).imp_right fun hba => lt_of_le_of_lt hba h
  number_of_lt _ := ⟨exact_isNaN _, exact_isNaN _⟩
  le_iff {a b} := by
    rw [exact_isNaN, exact_isNaN, not_lt]
    simp

namespace Simplify

theorem gap_eq (p q : Point Rat) :
    gap p q = (q.longitude - p.longitude) ^ 2 + (q.latitude - p.latitude) ^ 2 := by
  rw [pow_two, pow_two]
  rfl

theorem gap_nonneg (p q : Point Rat) : 0 ≤ gap p q := by
  rw [gap_eq]
  positivity

theorem gap_comm (p q : Point Rat) : gap p q = gap q p := by
  rw [gap_eq, gap_eq]
  ring

/-- The square distance over two stretches is at most twice the sum of their
square distances. -/
theorem gap_le_add (p q r : Point Rat) : gap p r ≤ 2 * (gap p q + gap q r) := by
  have hlon := sq_nonneg (2 * q.longitude - p.longitude - r.longitude)
  have hlat := sq_nonneg (2 * q.latitude - p.latitude - r.latitude)
  rw [gap_eq, gap_eq, gap_eq]
  linarith

/-! ## Points of a segment -/

/-- The point at a fraction of the way from the start of a segment to its
stop. -/
def between (start stop : Point Rat) (s : Rat) : Point Rat :=
  ⟨start.longitude + (stop.longitude - start.longitude) * s,
    start.latitude + (stop.latitude - start.latitude) * s, none⟩

/-- The fraction at which a point projects onto the line of a segment, below
zero or above one if it does so past the ends. -/
def projection (p start stop : Point Rat) : Rat :=
  ((p.longitude - start.longitude) * (stop.longitude - start.longitude)
      + (p.latitude - start.latitude) * (stop.latitude - start.latitude))
    / gap start stop

theorem gap_mul_projection (p start stop : Point Rat) :
    gap start stop * projection p start stop
      = (p.longitude - start.longitude) * (stop.longitude - start.longitude)
        + (p.latitude - start.latitude) * (stop.latitude - start.latitude) := by
  by_cases hgap : gap start stop = 0
  · have hlon : stop.longitude - start.longitude = 0 := by
      rw [gap_eq] at hgap
      nlinarith [sq_nonneg (stop.latitude - start.latitude)]
    have hlat : stop.latitude - start.latitude = 0 := by
      rw [gap_eq] at hgap
      nlinarith [sq_nonneg (stop.longitude - start.longitude)]
    rw [hgap, hlon, hlat]
    ring
  · exact mul_div_cancel₀ _ hgap

/-- Along the segment the square distance to a point is a parabola around its
projection. -/
theorem gap_between_sub (p start stop : Point Rat) (s t : Rat) :
    gap p (between start stop s) - gap p (between start stop t)
      = gap start stop * ((s - projection p start stop) ^ 2
        - (t - projection p start stop) ^ 2) := by
  have hdot := gap_mul_projection p start stop
  have hgap := gap_eq start stop
  rw [gap_eq, gap_eq, between, between]
  linear_combination 2 * (s - t) * hdot + (t ^ 2 - s ^ 2) * hgap

/-! ## The closest point of a segment -/

/-- The fraction between zero and one that is closest to a number. -/
def clamp (t : Rat) : Rat := if 1 < t then 1 else if 0 < t then t else 0

theorem clamp_nonneg (t : Rat) : 0 ≤ clamp t := by
  unfold clamp
  split_ifs <;> linarith

theorem clamp_le_one (t : Rat) : clamp t ≤ 1 := by
  unfold clamp
  split_ifs <;> linarith

theorem sq_clamp_sub_le {s : Rat} (t : Rat) (hs₀ : 0 ≤ s) (hs₁ : s ≤ 1) :
    (clamp t - t) ^ 2 ≤ (s - t) ^ 2 := by
  unfold clamp
  split_ifs with hone hzero
  · nlinarith
  · nlinarith [sq_nonneg (s - t)]
  · nlinarith

theorem deviation_eq (p start stop : Point Rat) :
    deviation p start stop
      = gap p (between start stop (clamp (projection p start stop))) := by
  have hproj : projection p start stop
      = ((p.latitude - start.latitude) * (stop.latitude - start.latitude)
          + (p.longitude - start.longitude) * (stop.longitude - start.longitude))
        / ((stop.latitude - start.latitude) * (stop.latitude - start.latitude)
          + (stop.longitude - start.longitude) * (stop.longitude - start.longitude)) := by
    rw [projection, gap_eq]
    ring
  rw [gap_eq, deviation, clamp, hproj]
  simp only [exact_zero, exact_one, between]
  by_cases hpoint :
      stop.latitude - start.latitude = 0 ∧ stop.longitude - start.longitude = 0
  · obtain ⟨hlat, hlon⟩ := hpoint
    simp only [hlat, hlon, bne_self_eq_false, Bool.or_self, Bool.false_eq_true, if_false,
      zero_mul, add_zero]
    ring
  · have hlength : (stop.latitude - start.latitude != 0
        || stop.longitude - start.longitude != 0) = true := by
      simp only [bne, exact_beq, Bool.or_eq_true, Bool.not_eq_true', decide_eq_false_iff_not]
      exact not_and_or.mp hpoint
    simp only [hlength, if_true]
    split_ifs <;> ring

/-- No point of the segment is closer than the deviation says. -/
theorem deviation_le_gap_between (p start stop : Point Rat) {s : Rat} (hs₀ : 0 ≤ s)
    (hs₁ : s ≤ 1) : deviation p start stop ≤ gap p (between start stop s) := by
  have hsub := gap_between_sub p start stop s (clamp (projection p start stop))
  have hmul := mul_nonneg (gap_nonneg start stop)
    (sub_nonneg.mpr (sq_clamp_sub_le (projection p start stop) hs₀ hs₁))
  rw [deviation_eq]
  linarith

/-- Some point of the segment is as close as the deviation says. -/
theorem exists_deviation_eq (p start stop : Point Rat) :
    ∃ s, 0 ≤ s ∧ s ≤ 1 ∧ deviation p start stop = gap p (between start stop s) :=
  ⟨_, clamp_nonneg _, clamp_le_one _, deviation_eq p start stop⟩

theorem gap_between_zero (start stop : Point Rat) (p : Point Rat) :
    gap p (between start stop 0) = gap p start := by
  rw [gap_eq, gap_eq, between]
  ring

theorem gap_between_one (start stop : Point Rat) (p : Point Rat) :
    gap p (between start stop 1) = gap p stop := by
  rw [gap_eq, gap_eq, between]
  ring

theorem deviation_le_gap_start (p start stop : Point Rat) :
    deviation p start stop ≤ gap p start := by
  rw [← gap_between_zero start stop p]
  exact deviation_le_gap_between p start stop le_rfl zero_le_one

theorem deviation_le_gap_stop (p start stop : Point Rat) :
    deviation p start stop ≤ gap p stop := by
  rw [← gap_between_one start stop p]
  exact deviation_le_gap_between p start stop zero_le_one le_rfl

/-- The deviation of a point from a segment is the least of its square distances to the points
of the segment, which may be a single one. So neither end is closer. -/
theorem deviation_isLeast (p start stop : Point Rat) :
    IsLeast {d | ∃ s, 0 ≤ s ∧ s ≤ 1 ∧ d = gap p (between start stop s)}
        (deviation p start stop)
      ∧ deviation p start stop ≤ gap p start
      ∧ deviation p start stop ≤ gap p stop := by
  refine ⟨⟨exists_deviation_eq p start stop, ?_⟩, deviation_le_gap_start p start stop,
    deviation_le_gap_stop p start stop⟩
  intro d hd
  obtain ⟨s, hs₀, hs₁, rfl⟩ := hd
  exact deviation_le_gap_between p start stop hs₀ hs₁

theorem gap_self (p : Point Rat) : gap p p = 0 := by
  rw [gap_eq]
  ring

theorem deviation_start_nonpos (start stop : Point Rat) :
    deviation start start stop ≤ 0 :=
  (deviation_le_gap_start start start stop).trans_eq (gap_self start)

theorem deviation_stop_nonpos (start stop : Point Rat) :
    deviation stop start stop ≤ 0 :=
  (deviation_le_gap_stop stop start stop).trans_eq (gap_self stop)

/-- A detour over another point. -/
theorem deviation_le_add (p q start stop : Point Rat) :
    deviation p start stop ≤ 2 * (gap p q + deviation q start stop) := by
  obtain ⟨s, hs₀, hs₁, hq⟩ := exists_deviation_eq q start stop
  rw [hq]
  exact (deviation_le_gap_between p start stop hs₀ hs₁).trans (gap_le_add p q _)

end Simplify

end Graticule
