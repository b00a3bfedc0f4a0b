import Graticule.Proofs.RayParity
import Mathlib.Tactic.Linarith

/-!
# A ring on one side of a line

Which side of a line a point is on is the sign of `turn`, and along the ray from a
point `turn` grows, shrinks or stays as it is. So take a ring on one side of a line, the
line itself included, and a point on the other. Where an edge passes the latitude of the
point it is on the ring's side, and that is always east of the point or always west of
it, whichever way `turn` grows. If it is west no edge is crossed. If it is east every
edge is crossed that passes the latitude, and a closed walk passes it an even number of
times. Either way the point is not in the ring.

Nothing is asked of the ring besides; it may cross itself.
-/

namespace Graticule

/-! ## Turns -/

/-- Twice the area of the triangle with three corners, above zero if they make a turn to
the left. -/
def turn (a b c : Point Rat) : Rat :=
  (b.longitude - a.longitude) * (c.latitude - a.latitude)
    - (b.latitude - a.latitude) * (c.longitude - a.longitude)

theorem turn_rotate (a b c : Point Rat) : turn b c a = turn a b c := by
  unfold turn
  ring

theorem turn_swap (a b c : Point Rat) : turn b a c = -turn a b c := by
  unfold turn
  ring

theorem turn_start (a b : Point Rat) : turn a b a = 0 := by
  unfold turn
  ring

theorem turn_stop (a b : Point Rat) : turn a b b = 0 := by
  unfold turn
  ring

/-- The turn at the point where an edge passes a latitude lies between the turns at its
ends. -/
theorem turn_longitudeAt (u v p : Point Rat) {a b : Point Rat}
    (h : a.latitude ≠ b.latitude) :
    (a.latitude - b.latitude)
        * (turn u v p
          + (u.latitude - v.latitude) * (longitudeAt a b p.latitude - p.longitude))
      = (p.latitude - b.latitude) * turn u v a + (a.latitude - p.latitude) * turn u v b := by
  have hab : a.latitude - b.latitude ≠ 0 := sub_ne_zero.mpr h
  unfold turn longitudeAt
  field_simp
  ring

/-! ## Edges on one side -/

variable {u v p a b : Point Rat}

theorem crossesEdge_of_above (ha : 0 ≤ turn u v a) (hb : 0 ≤ turn u v b) (hp : turn u v p < 0)
    (hhigh : p.latitude < a.latitude) (hlow : b.latitude ≤ p.latitude) :
    crossesEdge p (a, b) = decide (v.latitude < u.latitude) := by
  have hlevels : (above p b != above p a) = true := by simp [above, hhigh, hlow]
  have hnonneg : 0 ≤ (p.latitude - b.latitude) * turn u v a
      + (a.latitude - p.latitude) * turn u v b :=
    add_nonneg (mul_nonneg (by linarith) ha) (mul_nonneg (by linarith) hb)
  rw [← turn_longitudeAt u v p (by linarith)] at hnonneg
  have hside := nonneg_of_mul_nonneg_right hnonneg (by linarith)
  have hpos : 0 < (u.latitude - v.latitude) * (longitudeAt a b p.latitude - p.longitude) := by
    linarith
  rw [crossesEdge_eq, hlevels, Bool.true_and, decide_eq_decide]
  constructor
  · intro heast
    exact sub_pos.mp ((mul_pos_iff_of_pos_right (sub_pos.mpr heast)).mp hpos)
  · intro hgrows
    exact sub_pos.mp ((mul_pos_iff_of_pos_left (sub_pos.mpr hgrows)).mp hpos)

/-- An edge on one side of a line is crossed when it passes the latitude of a point on the
other side, if turns grow to the east, and never if they do not. -/
theorem crossesEdge_of_turn_nonneg (ha : 0 ≤ turn u v a) (hb : 0 ≤ turn u v b)
    (hp : turn u v p < 0) :
    crossesEdge p (a, b)
      = ((above p a ^^ above p b) && decide (v.latitude < u.latitude)) := by
  by_cases hhigh : p.latitude < a.latitude
  · by_cases hlow : p.latitude < b.latitude
    · simp [crossesEdge_eq, above, hhigh, hlow]
    · rw [crossesEdge_of_above ha hb hp hhigh (not_lt.mp hlow)]
      simp [above, hhigh, hlow]
  · by_cases hlow : p.latitude < b.latitude
    · rw [crossesEdge_swap, crossesEdge_of_above hb ha hp hlow (not_lt.mp hhigh)]
      simp [above, hhigh, hlow]
    · simp [crossesEdge_eq, above, hhigh, hlow]

theorem walkParity_of_turn_nonneg (hp : turn u v p < 0) (first last : Point Rat)
    (inner : List (Point Rat)) (hwalk : ∀ w ∈ first :: (inner ++ [last]), 0 ≤ turn u v w) :
    walkParity p (first :: (inner ++ [last]))
      = ((above p first ^^ above p last) && decide (v.latitude < u.latitude)) := by
  induction inner generalizing first with
  | nil =>
      rw [List.nil_append, walkParity_pair]
      exact crossesEdge_of_turn_nonneg (hwalk first (by simp)) (hwalk last (by simp)) hp
  | cons w inner ih =>
      rw [List.forall_mem_cons] at hwalk
      rw [List.cons_append, walkParity, ih w hwalk.2,
        crossesEdge_of_turn_nonneg hwalk.1 (hwalk.2 w (by simp)) hp]
      cases decide (v.latitude < u.latitude) <;> simp

/-- A ring on one side of a line does not contain a point on the other side. -/
theorem inRing_of_turn_nonneg {ring : List (Point Rat)} (hring : ∀ w ∈ ring, 0 ≤ turn u v w)
    (hp : turn u v p < 0) : inRing p ring = false := by
  cases ring with
  | nil => rfl
  | cons first rest =>
      have hwalk : ∀ w ∈ first :: (rest ++ [first]), 0 ≤ turn u v w := by
        intro w hw
        refine hring w ?_
        rw [← List.cons_append, List.mem_append, List.mem_singleton] at hw
        rcases hw with hw | rfl
        · exact hw
        · exact List.mem_cons_self
      rw [inRing_cons, walkParity_of_turn_nonneg hp first first rest hwalk, Bool.xor_self,
        Bool.false_and]

/-! ## An edge with the point to its left -/

/-- An edge that has the point to its left is crossed where it comes from the latitude of
the point or below and goes above. -/
theorem crossesEdge_of_turn_pos (h : 0 < turn a b p) :
    crossesEdge p (a, b) = (!above p a && above p b) := by
  by_cases hlevel : a.latitude = b.latitude
  · rw [crossesEdge_of_level p hlevel, above, above, hlevel, Bool.not_and_self]
  · have hplace := turn_longitudeAt a b p hlevel
    rw [turn_start, turn_stop, mul_zero, mul_zero, add_zero] at hplace
    have hzero := (mul_eq_zero.mp hplace).resolve_left (sub_ne_zero.mpr hlevel)
    have hpos : 0 < (b.latitude - a.latitude) * (longitudeAt a b p.latitude - p.longitude) := by
      linarith
    rw [crossesEdge_eq]
    by_cases ha : p.latitude < a.latitude
    · by_cases hb : p.latitude < b.latitude
      · simp [above, ha, hb]
      · have hwest : longitudeAt a b p.latitude ≤ p.longitude := by
          by_contra heast
          have hrises := (mul_pos_iff_of_pos_right (sub_pos.mpr (not_le.mp heast))).mp hpos
          linarith
        simp [above, ha, hb, hwest]
    · by_cases hb : p.latitude < b.latitude
      · have heast : p.longitude < longitudeAt a b p.latitude :=
          sub_pos.mp ((mul_pos_iff_of_pos_left (by linarith)).mp hpos)
        simp [above, ha, hb, heast]
      · simp [above, ha, hb]

end Graticule
