import Graticule.Proofs.Binary64.Identity
import Graticule.Proofs.Binary64.Ordered
import Graticule.Proofs.Distinct
import Graticule.Proofs.Extremes

/-!
# Least boxes of doubles

The two zeros tie, and so do no other doubles that are not the same, so the extremes of a
list of doubles are the same in whatever order the list comes. What holds for the sides of
a least box is said here of doubles, with what is not a number among them: a side is the
least or the greatest number of its coordinate wherever the points have one, the box takes
in every coordinate that is a number, reordering the points gives an equal box, and the box
around two lists comes from the boxes around each.
-/

namespace Graticule

open Binary64

variable {points others : List (Point Float)} {b : Box Float}

namespace Binary64

variable {x y : Float}

/-- Doubles that bound each other are the same, and so are any two that are not
numbers. -/
theorem same_of_tie (h : Scalar.isNaN x = true ∧ Scalar.isNaN y = true ∨ x ≤ y ∧ y ≤ x) :
    Scalar.same x y = true := by
  rw [same_iff_value]
  rcases h with ⟨hx, hy⟩ | ⟨hle, hge⟩
  · rw [isNaN_iff_value.mp hx, isNaN_iff_value.mp hy]
  · obtain ⟨p, q, hp, hq, hpq⟩ := le_iff.mp hle
    rw [le_iff_of_value hq hp] at hge
    rw [hp, hq, le_antisymm hpq hge]

theorem le_of_same (h : Scalar.same x y = true) (hnumber : Scalar.isNaN x = false) :
    x ≤ y ∧ y ≤ x := by
  rw [same_iff_value] at h
  cases hx : value x with
  | none =>
      rw [isNaN_iff_value.mpr hx] at hnumber
      cases hnumber
  | some v =>
      have hy : value y = some v := h.symm.trans hx
      exact ⟨le_iff.mpr ⟨v, v, hx, hy, le_rfl⟩, le_iff.mpr ⟨v, v, hy, hx, le_rfl⟩⟩

section

variable {xs ys : List Float} (hsubset : ys ⊆ xs)
  (hcover : ∀ a ∈ xs, ∃ b ∈ ys, Scalar.same a b = true)

include hsubset hcover

/-- Values that are the same as others have the same least one as these. -/
theorem same_of_least (hx : Extreme (· ≤ ·) xs x) (hy : Extreme (· ≤ ·) ys y) :
    Scalar.same x y = true := by
  refine same_of_tie (ranking_lt.extremes_tie hx hy hsubset fun a ha hnumber => ?_)
  obtain ⟨b, hb, hab⟩ := hcover a ha
  exact ⟨b, hb, (le_of_same hab hnumber).2⟩

theorem same_of_greatest (hx : Extreme (· ≥ ·) xs x) (hy : Extreme (· ≥ ·) ys y) :
    Scalar.same x y = true := by
  refine same_of_tie ((ranking_gt.extremes_tie hx hy hsubset fun a ha hnumber => ?_).imp_right
    And.symm)
  obtain ⟨b, hb, hab⟩ := hcover a ha
  exact ⟨b, hb, (le_of_same hab hnumber).1⟩

end

end Binary64

namespace Box

theorem exists_same_coordinate (coordinate : Point Float → Float)
    (hsame : ∀ {p q : Point Float},
      (p == q) = true → Scalar.same (coordinate p) (coordinate q) = true)
    (hcover : ∀ p ∈ points, ∃ q ∈ others, (p == q) = true) :
    ∀ x ∈ points.map coordinate, ∃ y ∈ others.map coordinate, Scalar.same x y = true := by
  rw [List.forall_mem_map]
  intro p hp
  obtain ⟨q, hq, hpq⟩ := hcover p hp
  exact ⟨_, List.mem_map_of_mem hq, hsame hpq⟩

/-- Boxes around points are equal where the second is around some of the points of the first,
and each of the others is equal to one of these. -/
theorem Bounds.beq_of_subset {c : Box Float} (hb : b.Bounds points) (hc : c.Bounds others)
    (hsubset : others ⊆ points) (hcover : ∀ p ∈ points, ∃ q ∈ others, (p == q) = true) :
    (b == c) = true := by
  have hlongitudes := exists_same_coordinate Point.longitude
    (fun h => (Point.beq_iff.mp h).1) hcover
  have hlatitudes := exists_same_coordinate Point.latitude
    (fun h => (Point.beq_iff.mp h).2.1) hcover
  have hlongitude := List.map_subset Point.longitude hsubset
  have hlatitude := List.map_subset Point.latitude hsubset
  rw [hb.flat, hc.flat]
  show (Scalar.same b.west c.west && Scalar.same b.south c.south && true
    && (Scalar.same b.east c.east && Scalar.same b.north c.north && true)) = true
  rw [same_of_least hlongitude hlongitudes hb.west hc.west,
    same_of_least hlatitude hlatitudes hb.south hc.south,
    same_of_greatest hlongitude hlongitudes hb.east hc.east,
    same_of_greatest hlatitude hlatitudes hb.north hc.north]
  rfl

/-- Boxes around the same points are equal. -/
theorem Bounds.beq_of_perm {c : Box Float} (hb : b.Bounds points) (hc : c.Bounds others)
    (hperm : points.Perm others) : (b == c) = true :=
  hb.beq_of_subset hc hperm.symm.subset fun p hp => ⟨p, hperm.subset hp, BEq.rfl⟩

/-- The least box around some points is exactly their extent, whatever their order and
whichever of their coordinates are not numbers. -/
theorem around?_exact (h : points ≠ []) :
    ∃ b, around? points = some b
      ∧ b.Bounds points
      ∧ (∀ p ∈ points,
          (Scalar.isNaN p.longitude = false → b.west ≤ p.longitude ∧ p.longitude ≤ b.east)
            ∧ (Scalar.isNaN p.latitude = false → b.south ≤ p.latitude ∧ p.latitude ≤ b.north))
      ∧ (∀ others, points.Perm others → ∃ c, around? others = some c ∧ (b == c) = true)
      ∧ ∀ others, others ≠ [] →
          ∃ c, around? others = some c ∧ around? (points ++ others) = some (b.join c) := by
  obtain ⟨b, hb⟩ := exists_around? h
  have hbounds := around?_bounds hb
  refine ⟨b, hb, hbounds, fun p hp => hbounds.within hp, ?_, ?_⟩
  · intro others hperm
    have hothers : others ≠ [] := fun hnil => h (hperm.trans (hnil ▸ .refl _)).eq_nil
    obtain ⟨c, hc⟩ := exists_around? hothers
    exact ⟨c, hc, hbounds.beq_of_perm (around?_bounds hc) hperm⟩
  · intro others hothers
    obtain ⟨c, hc⟩ := exists_around? hothers
    exact ⟨c, hc, around?_append hb hc⟩

/-- A side is a number although the first point has none to start from. -/
theorem around?_exact_of_nan_first :
    [(⟨notANumber, 4, none⟩ : Point Float), ⟨2, notANumber, none⟩] ≠ []
      ∧ ∃ b, around? [(⟨notANumber, 4, none⟩ : Point Float), ⟨2, notANumber, none⟩] = some b
          ∧ b.west ≤ 2 ∧ 4 ≤ b.north
          ∧ Scalar.isNaN b.east = false ∧ Scalar.isNaN b.south = false := by
  refine ⟨List.cons_ne_nil _ _, ?_⟩
  obtain ⟨b, hb, hbounds, hwithin, -⟩ := around?_exact (List.cons_ne_nil
    (⟨notANumber, 4, none⟩ : Point Float) [⟨2, notANumber, none⟩])
  have hsecond := (hwithin ⟨2, notANumber, none⟩ (by simp)).1 (by decide)
  have hfirst := (hwithin ⟨notANumber, 4, none⟩ (by simp)).2 (by decide)
  exact ⟨b, hb, hsecond.1, hfirst.2, (StrictlyOrdered.le_iff.mp hsecond.2).2.1,
    (StrictlyOrdered.le_iff.mp hfirst.1).1⟩

end Box

end Graticule
