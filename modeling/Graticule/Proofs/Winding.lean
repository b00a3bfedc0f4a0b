import Graticule.Proofs.Additivity
import Graticule.Proofs.Sides

/-!
# The area of a ring drawn differently

The area of a ring is a sum over its corners, each with the point before and the point
after. A corner is where a side comes in and a side goes out, and the difference of the two
longitudes splits into what the one adds and what the other does. Every side comes in at
one corner and goes out of another, so the same sum can be taken over the sides.

Over sides the laws are plain. A side gone along from its other end adds the opposite, one
from a point to itself adds nothing, and where the ring starts is a matter of order. A ring
of fewer than three points has no area by decree, and its sides add up to zero besides, so
it needs no law of its own.

Nothing is asked of sine, nor of what an angle in degrees is in radians. What is asked is
that arithmetic is exact, and of the order only that a value and its opposite have one size.
-/

namespace Graticule

variable {α β : Type}

/-- Differences, products and quotients are exact as well as sums, and the order goes with
the signs. -/
class ExactArithmetic (α : Type) [Scalar α] : Prop extends ExactSum α where
  add_neg_self (a : α) : a + -a = 0
  neg_neg (a : α) : - -a = a
  neg_add (a b : α) : -(a + b) = -a + -b
  sub_mul (a b c : α) : (a - b) * c = a * c + -(b * c)
  neg_mul (a b : α) : -a * b = -(a * b)
  neg_div (a b : α) : -a / b = -(a / b)
  zero_mul (a : α) : 0 * a = 0
  zero_div (a : α) : 0 / a = 0
  neg_lt_zero {a : α} : -a < 0 ↔ 0 < a
  lt_asymm {a b : α} : a < b → ¬ b < a
  eq_of_not_lt {a b : α} : ¬ a < b → ¬ b < a → a = b

instance : ExactArithmetic ℝ where
  add_neg_self a := by rw [real_ofNat, Nat.cast_zero, add_neg_cancel]
  neg_neg := neg_neg
  neg_add := neg_add
  sub_mul a b c := by rw [sub_mul, sub_eq_add_neg]
  neg_mul := neg_mul
  neg_div a b := neg_div b a
  zero_mul a := by rw [real_ofNat, Nat.cast_zero, zero_mul]
  zero_div a := by rw [real_ofNat, Nat.cast_zero, zero_div]
  neg_lt_zero {a} := by
    rw [real_ofNat, Nat.cast_zero]
    exact neg_lt_zero
  lt_asymm := lt_asymm
  eq_of_not_lt h h' := le_antisymm (not_lt.mp h') (not_lt.mp h)

namespace Scalar

variable [Scalar α] [ExactArithmetic α]

theorem total_map_neg (f : β → α) (xs : List β) :
    total (xs.map fun x => -f x) = -total (xs.map f) := by
  induction xs with
  | nil =>
      show total [] = -total []
      rw [total_nil, neg_zero_eq]
  | cons x xs ih =>
      rw [List.map_cons, List.map_cons, total_cons, total_cons, ih, ExactArithmetic.neg_add]

theorem abs_neg (a : α) : abs (-a) = abs a := by
  unfold abs
  by_cases hneg : a < 0
  · rw [if_pos hneg, if_neg (mt ExactArithmetic.neg_lt_zero.mp (ExactArithmetic.lt_asymm hneg))]
  · rw [if_neg hneg]
    by_cases hpos : 0 < a
    · rw [if_pos (ExactArithmetic.neg_lt_zero.mpr hpos), ExactArithmetic.neg_neg]
    · rw [if_neg (mt ExactArithmetic.neg_lt_zero.mp hpos),
        ExactArithmetic.eq_of_not_lt hneg hpos, neg_zero_eq]

end Scalar

/-! ## Corners and sides -/

theorem rotateLeft_eq_rotate (xs : List β) (k : Nat) : xs.rotateLeft k = xs.rotate k := by
  rw [List.rotateLeft, List.rotate_eq_drop_append_take_mod]
  split
  · match xs with
    | [] => simp
    | [x] => simp [Nat.mod_one]
  · rfl

/-- A corner without the point before it is the side that goes out. -/
theorem map_snd_corners (ring : List (Point α)) :
    (corners ring).map Prod.snd = (sides ring).rotate 1 := by
  rw [corners, rotateLeft_eq_rotate, rotateLeft_eq_rotate, List.map_snd_zip (by simp),
    ← sides_rotate, sides_eq_zip, List.rotate_rotate]

/-- A corner without the point after it is the side that comes in. -/
theorem map_fst_corners (ring : List (Point α)) :
    (corners ring).map (Prod.map id Prod.fst) = sides ring := by
  rw [corners, rotateLeft_eq_rotate, rotateLeft_eq_rotate, sides_eq_zip, ← List.zip_map_right,
    List.map_fst_zip (by simp)]

section

variable [Trig α]

/-- What a side adds to the area where it goes out of a corner. -/
def outward (side : Point α × Point α) : α :=
  Trig.radians side.2.longitude * Trig.sin (Trig.radians side.1.latitude)

/-- What a side adds to the area where it comes into a corner. -/
def inward (side : Point α × Point α) : α :=
  -(Trig.radians side.1.longitude * Trig.sin (Trig.radians side.2.latitude))

/-- What a side adds to the area at both its ends. -/
def sweep (side : Point α × Point α) : α := outward side + inward side

variable [ExactArithmetic α]

theorem sweep_swap (side : Point α × Point α) : sweep side.swap = -sweep side := by
  rw [sweep, sweep, ExactArithmetic.neg_add, inward, inward, ExactArithmetic.neg_neg,
    ExactSum.add_comm]
  rfl

theorem sweep_self (v : Point α) : sweep (v, v) = 0 := ExactArithmetic.add_neg_self _

theorem total_sweep_of_short {ring : List (Point α)} (h : ring.length ≤ 2) :
    Scalar.total ((sides ring).map sweep) = 0 := by
  match ring with
  | [] => exact Scalar.total_nil
  | [v] =>
      show Scalar.total [sweep (v, v)] = 0
      rw [Scalar.total_singleton, sweep_self]
  | [v, w] =>
      show Scalar.total [sweep (v, w), sweep (v, w).swap] = 0
      rw [Scalar.total_cons, Scalar.total_singleton, sweep_swap, ExactArithmetic.add_neg_self]

theorem total_corners (ring : List (Point α)) :
    Scalar.total ((corners ring).map fun (before, corner, after) =>
        (Trig.radians after.longitude - Trig.radians before.longitude)
          * Trig.sin (Trig.radians corner.latitude))
      = Scalar.total ((sides ring).map sweep) := by
  calc _ = Scalar.total ((corners ring).map fun c =>
          outward c.2 + inward (Prod.map id Prod.fst c)) := by
        congr 1
        exact List.map_congr_left fun c _ => ExactArithmetic.sub_mul ..
    _ = Scalar.total (((sides ring).rotate 1).map outward)
          + Scalar.total ((sides ring).map inward) := by
        rw [Scalar.total_map_add, ← map_snd_corners, ← map_fst_corners, List.map_map,
          List.map_map]
        rfl
    _ = Scalar.total ((sides ring).map sweep) := by
        -- every side goes out of one corner, so turning them by one changes no sum
        rw [Scalar.total_perm ((List.rotate_perm (sides ring) 1).map outward),
          ← Scalar.total_map_add]
        rfl

/-- The area of a ring is what its sides sweep, however few they are. -/
theorem ringArea_eq (ring : List (Point α)) :
    ringArea ring
      = Scalar.total ((sides ring).map sweep) * earthRadius * earthRadius / 2 := by
  rw [ringArea]
  split
  · next hshort =>
      rw [total_sweep_of_short hshort, ExactArithmetic.zero_mul, ExactArithmetic.zero_mul,
        ExactArithmetic.zero_div]
  · rw [← total_corners, ← ExactSum.zero_add (Scalar.total _), ← Scalar.foldl_add_eq,
      List.foldl_map]

/-! ## Rings drawn differently -/

theorem ringArea_reverse (ring : List (Point α)) : ringArea ring.reverse = -ringArea ring := by
  have hperm : (sides ring.reverse).Perm ((sides ring).map Prod.swap) := by
    rw [sides_reverse]
    exact (List.rotate_perm _ 1).trans (List.reverse_perm _)
  have hsum : Scalar.total ((sides ring.reverse).map sweep)
      = -Scalar.total ((sides ring).map sweep) := by
    rw [Scalar.total_perm (hperm.map sweep), List.map_map, ← Scalar.total_map_neg]
    congr 1
    exact List.map_congr_left fun side _ => sweep_swap side
  rw [ringArea_eq, ringArea_eq, hsum, ExactArithmetic.neg_mul, ExactArithmetic.neg_mul,
    ExactArithmetic.neg_div]

theorem ringArea_rotate (ring : List (Point α)) (k : Nat) :
    ringArea (ring.rotate k) = ringArea ring := by
  rw [ringArea_eq, ringArea_eq, sides_rotate,
    Scalar.total_perm ((List.rotate_perm (sides ring) k).map sweep)]

theorem ringArea_close (ring : List (Point α)) :
    ringArea (ring ++ ring.head?.toList) = ringArea ring := by
  cases ring with
  | nil => rfl
  | cons first rest =>
      have hclosed : first :: rest ++ (first :: rest).head?.toList = first :: (rest ++ [first]) :=
        rfl
      rw [hclosed, ringArea_eq, ringArea_eq, sides_close, List.map_append, Scalar.total_append,
        List.map_singleton, Scalar.total_singleton, sweep_self, ExactSum.add_comm,
        ExactSum.zero_add]

omit [Trig α] [ExactArithmetic α] in
/-- The second ring is the first drawn differently: the other way around, from another
point, or with its first point repeated at the end or no longer so, any number of times. -/
inductive Redrawn (ring : List (Point α)) : List (Point α) → Prop where
  | same : Redrawn ring ring
  | reverse {r : List (Point α)} (h : Redrawn ring r) : Redrawn ring r.reverse
  | rotate {r : List (Point α)} (h : Redrawn ring r) (k : Nat) : Redrawn ring (r.rotate k)
  | close {r : List (Point α)} (h : Redrawn ring r) : Redrawn ring (r ++ r.head?.toList)
  | unclose {r : List (Point α)} (h : Redrawn ring (r ++ r.head?.toList)) : Redrawn ring r

theorem Redrawn.abs_ringArea {ring r : List (Point α)} (h : Redrawn ring r) :
    Scalar.abs (ringArea r) = Scalar.abs (ringArea ring) := by
  induction h with
  | same => rfl
  | reverse _ ih => rw [ringArea_reverse, Scalar.abs_neg, ih]
  | rotate _ k ih => rw [ringArea_rotate, ih]
  | close _ ih => rw [ringArea_close, ih]
  | unclose _ ih => rw [← ih, ringArea_close]

theorem area_of_redrawn {p q : Polygon α} (h : List.Forall₂ Redrawn p.rings q.rings) :
    q.area = p.area := by
  obtain ⟨rings, bbox⟩ := p
  obtain ⟨rings', bbox'⟩ := q
  cases h with
  | nil => rfl
  | @cons outer outer' holes holes' houter hholes =>
      have hsizes : (holes'.map fun hole => Scalar.abs (ringArea hole))
          = holes.map fun hole => Scalar.abs (ringArea hole) := by
        induction hholes with
        | nil => rfl
        | cons hhole _ ih => rw [List.map_cons, List.map_cons, hhole.abs_ringArea, ih]
      show Scalar.abs (ringArea outer') - Scalar.total (holes'.map _)
        = Scalar.abs (ringArea outer) - Scalar.total (holes.map _)
      rw [houter.abs_ringArea, hsizes]

end

/-- The area of a ring changes its sign with the winding, and does not change with the point
it starts from or when its first point is repeated at the end. So the area of a polygon is
the same whichever way its rings are drawn. -/
theorem ringArea_winding [Trig α] [ExactArithmetic α] :
    (∀ ring : List (Point α),
        ringArea ring.reverse = -ringArea ring
          ∧ (∀ k, ringArea (ring.rotate k) = ringArea ring)
          ∧ ringArea (ring ++ ring.head?.toList) = ringArea ring)
      ∧ ∀ p q : Polygon α, List.Forall₂ Redrawn p.rings q.rings → q.area = p.area :=
  ⟨fun ring => ⟨ringArea_reverse ring, ringArea_rotate ring, ringArea_close ring⟩,
    fun _ _ h => area_of_redrawn h⟩

/-- A square's two halves as the rings of a polygon. The outer ring is drawn the other way
around and left open, and the hole is started elsewhere and closed. -/
theorem ringArea_winding_of_triangle :
    let a : Point ℝ := ⟨0, 0, none⟩
    let b : Point ℝ := ⟨1, 0, none⟩
    let c : Point ℝ := ⟨1, 1, some 1⟩
    let d : Point ℝ := ⟨0, 0, none⟩
    let e : Point ℝ := ⟨1, 1, none⟩
    let f : Point ℝ := ⟨0, 1, none⟩
    let p : Polygon ℝ := ⟨[[a, b, c, a], [d, e, f]], none⟩
    let q : Polygon ℝ := ⟨[[c, b, a], [f, d, e, f]], none⟩
    ringArea [c, b, a] = -ringArea [a, b, c] ∧ ringArea [f, d, e] = ringArea [d, e, f]
      ∧ ringArea [a, b, c, a] = ringArea [a, b, c]
      ∧ List.Forall₂ Redrawn p.rings q.rings ∧ q.area = p.area := by
  intro a b c d e f p q
  obtain ⟨hring, hpolygon⟩ := ringArea_winding (α := ℝ)
  have houter : Redrawn [a, b, c, a] [c, b, a] := (Redrawn.same.unclose (r := [a, b, c])).reverse
  have hhole : Redrawn [d, e, f] [f, d, e, f] := (Redrawn.same.rotate 2).close
  have hrings : List.Forall₂ Redrawn p.rings q.rings := .cons houter (.cons hhole .nil)
  exact ⟨(hring [a, b, c]).1, (hring [d, e, f]).2.1 2, (hring [a, b, c]).2.2, hrings,
    hpolygon p q hrings⟩

end Graticule
