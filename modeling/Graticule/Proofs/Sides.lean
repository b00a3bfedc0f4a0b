import Graticule.Proofs.Segments
import Mathlib.Data.List.Rotate
import Mathlib.Data.List.Zip

/-!
# The sides of a ring

A ring is closed: its last point is joined to its first. So its sides are the legs of the
path back to the first point, one for each point. Which points follow one another does not
depend on where the ring is started: started elsewhere, it has the same sides in the same
order, started elsewhere too. The other way around it has them from their other ends, and
a first point that is repeated at the end adds a side that goes nowhere.
-/

namespace Graticule

variable {α : Type} {a b : Point α} {xs ys ring : List (Point α)}

/-- The sides of a ring: each point with the next, and the last with the first. -/
def sides (ring : List (Point α)) : List (Point α × Point α) :=
  legs (ring ++ ring.head?.toList)

theorem legs_append (xs : List (Point α)) (v : Point α) (ys : List (Point α)) :
    legs (xs ++ v :: ys) = legs (xs ++ [v]) ++ legs (v :: ys) := by
  induction xs with
  | nil => rfl
  | cons x xs ih =>
      cases xs with
      | nil => rfl
      | cons y xs =>
          have hlegs (l : List (Point α)) : legs (x :: y :: l) = (x, y) :: legs (y :: l) := rfl
          simp only [List.cons_append, hlegs] at ih ⊢
          rw [ih]

/-! ## The sides of a ring drawn differently -/

theorem sides_eq_zip (ring : List (Point α)) : sides ring = ring.zip (ring.rotate 1) := by
  cases ring with
  | nil => rfl
  | cons first rest =>
      have hlength : (first :: rest).length = (rest ++ [first]).length := by simp
      show (first :: rest ++ [first]).zip (rest ++ [first]) = _
      rw [List.rotate_cons_succ, List.rotate_zero]
      -- the point that closes the ring starts no side
      conv_lhs => rw [← List.append_nil (rest ++ [first])]
      rw [List.zip_append hlength, List.zip_nil_right, List.append_nil]

theorem sides_rotate (ring : List (Point α)) (k : Nat) :
    sides (ring.rotate k) = (sides ring).rotate k := by
  rw [sides_eq_zip, sides_eq_zip, List.rotate_rotate, Nat.add_comm, ← List.rotate_rotate,
    List.zip_eq_zipWith, List.zip_eq_zipWith]
  exact (List.zipWith_rotate_distrib _ _ _ k (List.length_rotate ring 1).symm).symm

theorem sides_reverse (ring : List (Point α)) :
    sides ring.reverse = ((sides ring).map Prod.swap).reverse.rotate 1 := by
  have hrotate : (ring.rotate 1).reverse.rotate 1 = ring.reverse := by
    cases ring with
    | nil => rfl
    | cons first rest => simp
  rw [sides_eq_zip, sides_eq_zip, List.zip_swap, List.zip_eq_zipWith, List.zip_eq_zipWith,
    List.reverse_zipWith (List.length_rotate ring 1),
    List.zipWith_rotate_distrib _ _ _ 1 (by simp), hrotate]

theorem sides_close (first : Point α) (rest : List (Point α)) :
    sides (first :: (rest ++ [first])) = sides (first :: rest) ++ [(first, first)] := by
  show legs (first :: (rest ++ [first]) ++ [first]) = legs (first :: (rest ++ [first])) ++ _
  rw [← List.cons_append, List.append_assoc, List.singleton_append, legs_append]
  rfl

/-! ## Being a side -/

theorem mem_sides_of_mem_legs {e : Point α × Point α} (h : e ∈ legs ring) : e ∈ sides ring :=
  mem_legs_iff.mpr ((mem_legs_iff.mp h).trans (List.prefix_append _ _).isInfix)

theorem mem_sides_append_comm {e : Point α × Point α} (h : e ∈ sides (xs ++ ys)) :
    e ∈ sides (ys ++ xs) := by
  rwa [← List.rotate_append_length_eq xs ys, sides_rotate, List.mem_rotate]

theorem mem_sides_reverse (h : (a, b) ∈ sides ring.reverse) : (b, a) ∈ sides ring := by
  rw [sides_reverse, List.mem_rotate, List.mem_reverse] at h
  obtain ⟨⟨_, _⟩, he, ⟨⟩⟩ := List.mem_map.mp h
  exact he

/-- A ring can be started where any of its sides ends, and then it ends where that side
starts. -/
theorem exists_rotation_of_mem_sides (h : (a, b) ∈ sides ring) (hlength : 2 ≤ ring.length) :
    ∃ xs ys inner, ring = xs ++ ys ∧ ys ++ xs = b :: (inner ++ [a]) := by
  obtain ⟨first, rest, rfl⟩ := List.exists_cons_of_length_pos (l := ring) (by omega)
  obtain ⟨before, after, hclosed⟩ := mem_legs_iff.mp h
  rcases List.eq_nil_or_concat' after with rfl | ⟨after, last, rfl⟩
  · -- The side is the last one, and the ring starts where it ends as it is.
    have hsplit : (before ++ [a]) ++ [b] = (first :: rest) ++ [first] := by simpa using hclosed
    obtain ⟨hring, hfirst⟩ := List.append_inj' hsplit rfl
    obtain rfl := List.singleton_inj.mp hfirst
    rw [← hring, List.length_append, List.length_singleton] at hlength
    obtain ⟨v, inner, rfl⟩ := List.exists_cons_of_length_pos (l := before) (by omega)
    rw [List.cons_append] at hring
    obtain rfl := List.head_eq_of_cons_eq hring
    exact ⟨[], v :: rest, inner, rfl, by rw [List.append_nil, ← hring]⟩
  · have hsplit : (before ++ a :: b :: after) ++ [last] = (first :: rest) ++ [first] := by
      simpa using hclosed
    obtain ⟨hring, -⟩ := List.append_inj' hsplit rfl
    exact ⟨before ++ [a], b :: after, after ++ before, by simp [← hring], by simp⟩

/-- A point of a ring of three or more comes between two others. -/
theorem exists_neighbours_of_mem {v : Point α} (hv : v ∈ ring) (hlength : 3 ≤ ring.length) :
    ∃ xs ys before after inner, ring = xs ++ ys
      ∧ ys ++ xs = v :: after :: (inner ++ [before]) := by
  obtain ⟨xs, ys, rfl⟩ := List.append_of_mem hv
  have hrest : 2 ≤ (ys ++ xs).length := by
    rw [List.length_append, List.length_cons] at hlength
    rw [List.length_append]
    omega
  obtain ⟨after, rest, hafter⟩ := List.exists_cons_of_length_pos (l := ys ++ xs) (by omega)
  rw [hafter, List.length_cons] at hrest
  rcases List.eq_nil_or_concat' rest with rfl | ⟨inner, before, rfl⟩
  · rw [List.length_nil] at hrest
    omega
  · exact ⟨xs, v :: ys, before, after, inner, rfl, by simp [hafter]⟩

end Graticule
