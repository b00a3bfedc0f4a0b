import Graticule.Proofs.Binary64.Ordered
import Graticule.Proofs.Cut

/-!
# Simplifications are nested by tolerance

Where a section is cut does not depend on the limit, and a higher limit only cuts
fewer sections. So what is kept under the higher limit is kept under the lower one
too, and looking again at what the lower one kept finds the same cuts: the points
missing from it were never cuts under either limit.

Only the order of the deviations matters, and a deviation that is not a number is
no trouble, so all this holds of doubles. It holds of the search without the
coarser pass. With it, the two limits start from different points.

Which positions of a line are kept is asked of the line with its points numbered;
the passes do not look at the numbers.
-/

namespace Graticule

namespace Simplify

section

variable {α β : Type} [Scalar α] [StrictlyOrdered α] {deviation : β → β → β → α}
  {low high : α}

theorem divide_sublist_of_le (hle : low ≤ high) (start : β) (inner : List β) (stop : β) :
    (divide deviation high start inner stop).Sublist
      (divide deviation low start inner stop) := by
  fun_induction divide deviation high start inner stop with
  | case1 => exact List.nil_sublist _
  | case2 start inner stop c hsome ihbefore ihafter =>
      have hlow := cut?_eq_some_iff.mpr ((cut?_eq_some_iff.mp hsome).lower hle)
      rw [divide_of_some hlow]
      exact ihbefore.append (ihafter.cons_cons c.pivot)

/-- What a lower limit keeps is divided under a higher one as the whole section
is. -/
theorem divide_divide_of_le (hle : low ≤ high) (start : β) (inner : List β) (stop : β) :
    divide deviation high start (divide deviation low start inner stop) stop
      = divide deviation high start inner stop := by
  have hsublist (start : β) (inner : List β) (stop : β) :
      (divide deviation low start inner stop).Sublist inner :=
    (divide_keeps deviation low start inner stop).sublist
  fun_induction divide deviation high start inner stop with
  | case1 start inner stop hnone =>
      refine divide_of_none (cut?_eq_none_iff.mpr fun p hp => ?_)
      exact cut?_eq_none_iff.mp hnone p ((hsublist start inner stop).subset hp)
  | case2 start inner stop c hsome ihbefore ihafter =>
      have hfirst := cut?_eq_some_iff.mp hsome
      have hlow := cut?_eq_some_iff.mpr (hfirst.lower hle)
      have hkept := hfirst.sublist (hsublist start c.before c.pivot)
        (hsublist c.pivot c.after stop)
      rw [divide_of_some hlow, divide_of_some (cut?_eq_some_iff.mpr hkept)]
      simp only [ihbefore, ihafter]

end

/-! ## From sections to lines -/

section

variable {α β : Type} [Scalar α] [StrictlyOrdered α] {low high : α}

theorem passes_sublist_of_le (gap : β → β → α) (deviation : β → β → β → α) (hle : low ≤ high)
    (points : List β) :
    (passes gap deviation high true points).Sublist (passes gap deviation low true points) := by
  by_cases h : points.length < 2
  · rw [passes_of_length_lt gap deviation high true h, passes_of_length_lt gap deviation low true h]
  · obtain ⟨first, inner, last, rfl⟩ := exists_ends (Nat.le_of_not_lt h)
    rw [passes_ends, passes_ends]
    exact ((divide_sublist_of_le hle first inner last).append_right [last]).cons_cons first

theorem passes_passes_of_le (gap : β → β → α) (deviation : β → β → β → α) (hle : low ≤ high)
    (points : List β) :
    passes gap deviation high true (passes gap deviation low true points)
      = passes gap deviation high true points := by
  by_cases h : points.length < 2
  · rw [passes_of_length_lt gap deviation low true h]
  · obtain ⟨first, inner, last, rfl⟩ := exists_ends (Nat.le_of_not_lt h)
    rw [passes_ends, passes_ends, passes_ends]
    simp only [inside, if_true, divide_divide_of_le hle]

end

/-! ## Kept positions -/

section

variable {α : Type} [Scalar α]

/-- The positions of the points of a line that its simplification keeps. -/
def keptPositions (points : List (Point α)) (tolerance : α) (highQuality : Bool) : List Nat :=
  (passes (fun p q => gap p.1 q.1) (fun p a b => deviation p.1 a.1 b.1)
    (tolerance * tolerance) highQuality points.zipIdx).map Prod.snd

/-- The positions kept ascend and lead to the points of the simplified line. -/
theorem keptPositions_lead (points : List (Point α)) (tolerance : α) (highQuality : Bool) :
    (keptPositions points tolerance highQuality).Pairwise (· < ·)
      ∧ (keptPositions points tolerance highQuality).map (points[·]?)
        = (simplify points tolerance highQuality).map some := by
  have hpasses : (passes (fun p q => gap p.1 q.1) (fun p a b => deviation p.1 a.1 b.1)
      (tolerance * tolerance) highQuality points.zipIdx).map Prod.fst
        = simplify points tolerance highQuality := by
    by_cases h : points.length < 2
    · rw [passes_of_length_lt _ _ _ _ (by simpa using h), List.zipIdx_map_fst]
      exact (passes_of_length_lt gap deviation _ highQuality h).symm
    · have hlength : 2 ≤ points.zipIdx.length := by simpa using Nat.le_of_not_lt h
      have hmap := passes_map Prod.fst gap deviation (tolerance * tolerance) highQuality hlength
      rw [List.zipIdx_map_fst] at hmap
      exact hmap.symm
  obtain ⟨hascend, hlead⟩ := positions_of_sublist (passes_sublist
    (fun p q => gap p.1 q.1) (fun p a b => deviation p.1 a.1 b.1) (tolerance * tolerance)
    highQuality points.zipIdx)
  exact ⟨hascend, hlead.trans (congrArg _ hpasses)⟩

end

end Simplify

open Simplify

variable {α : Type} [Scalar α] [StrictlyOrdered α]

/-- Of two tolerances the one with the larger square keeps no position that the
other drops, and simplifying by both in turn is simplifying by the larger. -/
theorem simplify_nested (points : List (Point α)) {fine coarse : α}
    (h : fine * fine ≤ coarse * coarse) :
    (keptPositions points coarse true).Sublist (keptPositions points fine true)
      ∧ simplify (simplify points fine true) coarse true = simplify points coarse true := by
  have hkept := passes_sublist_of_le (fun p q => gap p.1 q.1)
    (fun p a b => deviation p.1 a.1 b.1) h points.zipIdx
  exact ⟨hkept.map Prod.snd, passes_passes_of_le gap deviation h points⟩

/-- A line of doubles with a latitude that is not a number, which is never a
deviation above any limit, and a tolerance below zero. -/
theorem simplify_nested_of_doubles :
    let points : List (Point Float) := [⟨0, 0, none⟩, ⟨1, 0 / 0, none⟩, ⟨2, 1, none⟩,
      ⟨3, 4, none⟩, ⟨4, 0, none⟩]
    (0.5 : Float) * 0.5 ≤ -2 * -2
      ∧ (keptPositions points (-2) true).Sublist (keptPositions points 0.5 true)
      ∧ simplify (simplify points 0.5 true) (-2) true = simplify points (-2) true := by
  have hle : (0.5 : Float) * 0.5 ≤ -2 * -2 := by decide +kernel
  exact ⟨hle, simplify_nested _ hle⟩

end Graticule
