import Graticule.Region
import Graticule.Scalar.Exact
import Mathlib.Data.List.Rotate
import Mathlib.Tactic.FieldSimp
import Mathlib.Tactic.Ring

/-!
# A ring is its edges

A point lies in a ring when the ray crosses an odd number of edges, so what
counts is the parity of crossings along the closed walk around the ring.
`walkParity` is that parity along any walk, closed or not, and `inRing_cons`
says a ring asks for it from its first point back to its first point. A walk
can be cut in two at any of its points, and then the parities add up; that is
all there is to starting the ring elsewhere.

In exact arithmetic an edge is crossed or not whichever end it is drawn from,
and an edge from a point to itself never is. The first lets a walk be walked
backwards, the second lets a point be repeated. Together they make a chord
between two points of a ring invisible: it divides the ring into two, and is
crossed in both or in neither.
-/

namespace Graticule

variable {α : Type} [Scalar α]

/-! ## Parity along a walk -/

/-- The ray from a point crosses an odd number of the edges along a walk. -/
def walkParity (p : Point α) : List (Point α) → Bool
  | a :: b :: rest => crossesEdge p (a, b) ^^ walkParity p (b :: rest)
  | _ => false

/-- A walk is cut in two at one of its points. -/
theorem walkParity_append (p v : Point α) (xs ys : List (Point α)) :
    walkParity p (xs ++ v :: ys)
      = (walkParity p (xs ++ [v]) ^^ walkParity p (v :: ys)) := by
  induction xs with
  | nil => simp [walkParity]
  | cons x xs ih =>
      cases xs with
      | nil => simp [walkParity]
      | cons y xs =>
          simp only [List.cons_append, walkParity] at ih ⊢
          rw [ih, Bool.xor_assoc]

theorem walkParity_pair (p a b : Point α) : walkParity p [a, b] = crossesEdge p (a, b) := by
  simp [walkParity]

theorem foldl_toggle (p : Point α) (inside : Bool) (walk : List (Point α)) :
    (walk.zip walk.tail).foldl
        (fun inside edge => if crossesEdge p edge then !inside else inside) inside
      = (inside ^^ walkParity p walk) := by
  induction walk generalizing inside with
  | nil => simp [walkParity]
  | cons a walk ih =>
      cases walk with
      | nil => simp [walkParity]
      | cons b rest =>
          simp only [List.tail_cons, List.zip_cons_cons, List.foldl_cons, walkParity] at ih ⊢
          rw [ih]
          cases crossesEdge p (a, b) <;> simp

/-- A ring is the closed walk from its first point back to it. -/
theorem inRing_cons (p first : Point α) (rest : List (Point α)) :
    inRing p (first :: rest) = walkParity p (first :: (rest ++ [first])) := by
  obtain ⟨before, last, hlast⟩ : ∃ before last, first :: rest = before ++ [last] :=
    ⟨_, _, (List.dropLast_append_getLast (List.cons_ne_nil first rest)).symm⟩
  have hedges : edges (first :: rest)
      = (last :: first :: rest).zip (last :: first :: rest).tail := by
    rw [edges, hlast, List.getLast?_concat]
    rfl
  rw [inRing, hedges, foldl_toggle, Bool.false_xor, ← List.cons_append, hlast,
    List.append_assoc, List.singleton_append, walkParity_append, ← hlast, walkParity_pair,
    walkParity, Bool.xor_comm]

theorem inRing_cons_append (p a b : Point α) (xs ys : List (Point α)) :
    inRing p (a :: (xs ++ b :: ys))
      = (walkParity p (a :: (xs ++ [b])) ^^ walkParity p (b :: (ys ++ [a]))) := by
  rw [inRing_cons, List.append_assoc, List.cons_append, ← List.cons_append,
    walkParity_append]
  rfl

theorem inRing_append_comm (p : Point α) (xs ys : List (Point α)) :
    inRing p (xs ++ ys) = inRing p (ys ++ xs) := by
  cases xs with
  | nil => rw [List.nil_append, List.append_nil]
  | cons a xs =>
      cases ys with
      | nil => rw [List.nil_append, List.append_nil]
      | cons b ys =>
          rw [List.cons_append, List.cons_append, inRing_cons_append, inRing_cons_append,
            Bool.xor_comm]

theorem inRing_rotate (p : Point α) (ring : List (Point α)) (k : Nat) :
    inRing p (ring.rotate k) = inRing p ring := by
  rw [List.rotate_eq_drop_append_take_mod, inRing_append_comm, List.take_append_drop]

theorem crossesEdge_self (p a : Point α) : crossesEdge p (a, a) = false := by
  simp [crossesEdge]

/-! ## Edges in exact arithmetic -/

/-- A second point is above a first, not level with it. -/
def above (p v : Point Rat) : Bool := decide (p.latitude < v.latitude)

/-- The longitude at which the line through two points passes a latitude. -/
def longitudeAt (a b : Point Rat) (latitude : Rat) : Rat :=
  (a.longitude - b.longitude) * (latitude - b.latitude) / (a.latitude - b.latitude)
    + b.longitude

/-- The place where an edge passes a latitude does not depend on the end it is
measured from. -/
theorem longitudeAt_swap {a b : Point Rat} (h : a.latitude ≠ b.latitude) (latitude : Rat) :
    longitudeAt a b latitude = longitudeAt b a latitude := by
  have hab : a.latitude - b.latitude ≠ 0 := sub_ne_zero.mpr h
  have hba : b.latitude - a.latitude ≠ 0 := sub_ne_zero.mpr h.symm
  unfold longitudeAt
  field_simp
  ring

theorem crossesEdge_eq (p a b : Point Rat) :
    crossesEdge p (a, b)
      = ((above p b != above p a) && decide (p.longitude < longitudeAt a b p.latitude)) :=
  rfl

theorem crossesEdge_of_level (p : Point Rat) {a b : Point Rat} (h : a.latitude = b.latitude) :
    crossesEdge p (a, b) = false := by
  rw [crossesEdge_eq, above, above, h, bne_self_eq_false, Bool.false_and]

theorem crossesEdge_swap (p a b : Point Rat) :
    crossesEdge p (a, b) = crossesEdge p (b, a) := by
  by_cases h : a.latitude = b.latitude
  · rw [crossesEdge_of_level p h, crossesEdge_of_level p h.symm]
  · rw [crossesEdge_eq, crossesEdge_eq, longitudeAt_swap h, bne_comm]

theorem walkParity_reverse (p : Point Rat) (walk : List (Point Rat)) :
    walkParity p walk.reverse = walkParity p walk := by
  induction walk with
  | nil => rfl
  | cons a walk ih =>
      cases walk with
      | nil => rfl
      | cons b rest =>
          rw [List.reverse_cons, List.reverse_cons, List.append_assoc,
            List.singleton_append, walkParity_append, ← List.reverse_cons, ih,
            walkParity_pair, walkParity, crossesEdge_swap, Bool.xor_comm]

/-! ## Rings in exact arithmetic -/

theorem inRing_reverse (p : Point Rat) (ring : List (Point Rat)) :
    inRing p ring.reverse = inRing p ring := by
  cases ring with
  | nil => rfl
  | cons first rest =>
      rw [List.reverse_cons, inRing_append_comm, List.singleton_append, inRing_cons,
        inRing_cons, ← walkParity_reverse]
      simp

theorem inRing_repeat (p v : Point Rat) (xs ys : List (Point Rat)) :
    inRing p (xs ++ v :: v :: ys) = inRing p (xs ++ v :: ys) := by
  rw [inRing_append_comm, inRing_append_comm p xs, List.cons_append, List.cons_append,
    inRing_cons, inRing_cons, List.cons_append, walkParity,
    crossesEdge_self, Bool.false_xor]

theorem inRing_close (p first : Point Rat) (rest : List (Point Rat)) :
    inRing p (first :: (rest ++ [first])) = inRing p (first :: rest) := by
  rw [← List.cons_append, inRing_append_comm, List.singleton_append]
  exact inRing_repeat p first [] rest

/-- A chord between two points of a ring divides it into two rings, and a point
lies in the ring when it lies in one of the two and not in both. -/
theorem inRing_chord (p a b : Point Rat) (before middle after : List (Point Rat)) :
    inRing p (before ++ a :: (middle ++ b :: after))
      = (inRing p (a :: (middle ++ [b])) ^^ inRing p (b :: (after ++ before ++ [a]))) := by
  have hwhole : inRing p (before ++ a :: (middle ++ b :: after))
      = inRing p (a :: (middle ++ b :: (after ++ before))) := by
    rw [inRing_append_comm]
    simp
  rw [hwhole, inRing_cons_append, inRing_cons_append, inRing_cons_append, List.nil_append,
    List.nil_append, walkParity_pair, walkParity_pair, crossesEdge_swap p a b]
  simp [Bool.xor_comm, Bool.xor_left_comm]

/-! ## Positions in a ring

A chord is given by the positions of its ends. The part from the first to the
second is read off the ring, and the part from the second to the first goes
around the end. -/

theorem exists_parts {β : Type} {ring : List β} {i j : Nat} (hij : i < j)
    (hj : j < ring.length) :
    ∃ before a middle b after, ring = before ++ a :: (middle ++ b :: after)
      ∧ before.length = i ∧ before.length + (middle.length + 1) = j := by
  have hi : i < ring.length := hij.trans hj
  have hrest : j - i - 1 < (ring.drop (i + 1)).length := by
    rw [List.length_drop]
    omega
  refine ⟨ring.take i, ring[i], (ring.drop (i + 1)).take (j - i - 1),
    (ring.drop (i + 1))[j - i - 1], (ring.drop (i + 1)).drop (j - i - 1 + 1), ?_, ?_, ?_⟩
  · rw [← List.drop_eq_getElem_cons hrest, List.take_append_drop,
      ← List.drop_eq_getElem_cons hi, List.take_append_drop]
  · rw [List.length_take]
    omega
  · rw [List.length_take, List.length_take, List.length_drop]
    omega

theorem inRing_halves (p : Point Rat) {ring : List (Point Rat)} {i j : Nat}
    (hij : i < j) (hj : j < ring.length) :
    inRing p ring
      = (inRing p ((ring.drop i).take (j - i + 1))
          ^^ inRing p (ring.drop j ++ ring.take (i + 1))) := by
  obtain ⟨before, a, middle, b, after, rfl, rfl, rfl⟩ := exists_parts hij hj
  have hnear : ((before ++ a :: (middle ++ b :: after)).drop before.length).take
      (before.length + (middle.length + 1) - before.length + 1)
        = a :: (middle ++ [b]) := by
    rw [List.drop_left, Nat.add_sub_cancel_left, List.take_succ_cons,
      List.take_length_add_append, List.take_succ_cons, List.take_zero]
  have hfar : (before ++ a :: (middle ++ b :: after)).drop
        (before.length + (middle.length + 1))
      ++ (before ++ a :: (middle ++ b :: after)).take (before.length + 1)
        = b :: (after ++ before ++ [a]) := by
    rw [List.drop_length_add_append, List.take_length_add_append, List.drop_succ_cons,
      List.drop_left, List.take_succ_cons, List.take_zero, List.cons_append,
      List.append_assoc]
  rw [hnear, hfar]
  exact inRing_chord p a b before middle after

/-- Whether a point lies in a ring does not depend on where the ring starts,
which way it goes around, which of its points are repeated or whether it is
closed; and two positions divide the ring into two, of which a point lies in
exactly one when it lies in the ring, and in both or neither when it does not. -/
theorem inRing_depends_on_edges (p : Point Rat) (ring : List (Point Rat)) :
    (∀ k, inRing p (ring.rotate k) = inRing p ring)
      ∧ inRing p ring.reverse = inRing p ring
      ∧ (∀ i, (hi : i < ring.length) →
          inRing p (ring.take i ++ ring[i] :: ring.drop i) = inRing p ring)
      ∧ inRing p (ring ++ ring.head?.toList) = inRing p ring
      ∧ ∀ i j, i < j → j < ring.length →
          inRing p ring
            = (inRing p ((ring.drop i).take (j - i + 1))
                ^^ inRing p (ring.drop j ++ ring.take (i + 1))) := by
  refine ⟨inRing_rotate p ring, inRing_reverse p ring, ?_, ?_, ?_⟩
  · intro i hi
    have hdrop := List.drop_eq_getElem_cons hi
    rw [hdrop, inRing_repeat, ← hdrop, List.take_append_drop]
  · cases ring with
    | nil => rfl
    | cons first rest => exact inRing_close p first rest
  · intro i j hij hj
    exact inRing_halves p hij hj

/-- A square along its diagonal: a point of the diagonal lies in the part below
it and not in the part above. -/
theorem inRing_depends_on_edges_of_square :
    let square : List (Point Rat) := [⟨0, 0, none⟩, ⟨2, 0, none⟩, ⟨2, 2, none⟩,
      ⟨0, 2, none⟩]
    0 < 2 ∧ 2 < square.length
      ∧ inRing ⟨1, 1, none⟩ square
        = (inRing ⟨1, 1, none⟩ ((square.drop 0).take 3)
            ^^ inRing ⟨1, 1, none⟩ (square.drop 2 ++ square.take 1))
      ∧ inRing ⟨1, 1, none⟩ ((square.drop 0).take 3) = true := by
  intro square
  have hlength : 2 < square.length := by decide
  obtain ⟨-, -, -, -, hhalves⟩ := inRing_depends_on_edges ⟨1, 1, none⟩ square
  exact ⟨by decide, hlength, hhalves 0 2 (by decide) hlength, by decide +kernel⟩

/-- The far corner of the same square is a corner of both parts and lies in
neither: nothing of the square is above it. -/
theorem inRing_halves_of_corner :
    let square : List (Point Rat) := [⟨0, 0, none⟩, ⟨2, 0, none⟩, ⟨2, 2, none⟩,
      ⟨0, 2, none⟩]
    let corner : Point Rat := ⟨2, 2, none⟩
    corner ∈ (square.drop 0).take 3 ∧ corner ∈ square.drop 2 ++ square.take 1
      ∧ inRing corner ((square.drop 0).take 3) = false
      ∧ inRing corner (square.drop 2 ++ square.take 1) = false :=
  ⟨by simp, by simp, by decide, by decide⟩

end Graticule
