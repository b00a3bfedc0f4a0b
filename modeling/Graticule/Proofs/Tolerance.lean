import Graticule.Proofs.Distance
import Graticule.Proofs.Reduction

/-!
# A simplified line stays within the tolerance

In exact arithmetic no point of a line is farther than the tolerance from the
simplified line, and with the coarser pass no farther than twice that. More is
said: the segment that is near to a point is the one between the two kept
points that stand around it in the line.

Where the coarser pass dropped a point, the point it was judged by may have
been dropped later, so its distance to the segment is bounded by a detour over
that point, and two tolerances add up. On squares, which is all the library
computes, twice the tolerance is four times its square.

To say where kept points stand, the line is simplified together with the
numbers of its points; simplification does not look at them.
-/

namespace Graticule

namespace Simplify

/-- How far, squared, a point may be from the simplified line. -/
def allowance (tolerance : Rat) (highQuality : Bool) : Rat :=
  if highQuality then tolerance * tolerance else 4 * (tolerance * tolerance)

theorem le_allowance (tolerance : Rat) (highQuality : Bool) :
    tolerance * tolerance ≤ allowance tolerance highQuality := by
  have h := mul_self_nonneg tolerance
  unfold allowance
  split_ifs <;> linarith

theorem allowance_nonneg (tolerance : Rat) (highQuality : Bool) :
    0 ≤ allowance tolerance highQuality :=
  (mul_self_nonneg tolerance).trans (le_allowance tolerance highQuality)

/-- Both passes together drop only points within the allowance of the segment
between the two points kept around them. -/
theorem inside_keeps {β : Type} (f : β → Point Rat) (tolerance : Rat)
    (highQuality : Bool) (first : β) (inner : List β) (last : β) :
    Keeps (fun p a b => deviation (f p) (f a) (f b) ≤ allowance tolerance highQuality)
      last first inner
      (inside (fun p q => gap (f p) (f q)) (fun p a b => deviation (f p) (f a) (f b))
        (tolerance * tolerance) highQuality first inner last) := by
  have hlimit (p a b : β)
      (h : ¬ tolerance * tolerance < deviation (f p) (f a) (f b)) :
      deviation (f p) (f a) (f b) ≤ allowance tolerance highQuality :=
    (not_lt.mp h).trans (le_allowance tolerance highQuality)
  cases highQuality with
  | true => exact (divide_keeps ..).mono hlimit
  | false =>
      refine (spread_keeps ..).comp ?_ hlimit ?_ (divide_keeps ..)
      · intro p a b _ hgap
        have := deviation_le_gap_start (f p) (f a) (f b)
        exact this.trans ((not_lt.mp hgap).trans (le_allowance tolerance false))
      · intro p k _ a b hgap hdev
        have hdetour := deviation_le_add (f p) (f k) (f a) (f b)
        have hpk := not_lt.mp hgap
        have hk := not_lt.mp hdev
        simp only [allowance, Bool.false_eq_true, if_false]
        linarith

end Simplify

open Simplify

/-- A simplified line keeps points of the line in their order, and every point
of the line is within the allowance of the segment between the two neighbours
among the kept ones that stand around it. -/
theorem simplify_within_tolerance (points : List (Point Rat)) (h : 2 ≤ points.length)
    (tolerance : Rat) (highQuality : Bool) :
    ∃ positions : List Nat, positions.Pairwise (· < ·)
      ∧ positions.map (points[·]?) = (simplify points tolerance highQuality).map some
      ∧ ∀ i, (hi : i < points.length) → ∃ a b, ∃ (ha : a < points.length)
        (hb : b < points.length), [a, b] <:+: positions ∧ a ≤ i ∧ i ≤ b
          ∧ deviation points[i] points[a] points[b] ≤ allowance tolerance highQuality := by
  -- The passes are run on numbered points, so what they keep carries its position.
  have hlength : 2 ≤ points.zipIdx.length := by simpa using h
  have hpasses := passes_map Prod.fst gap deviation (tolerance * tolerance) highQuality
    hlength
  obtain ⟨first, inner, last, hends⟩ := exists_ends hlength
  rw [List.zipIdx_map_fst, hends, passes_ends] at hpasses
  have hkeeps := inside_keeps Prod.fst tolerance highQuality first inner last
  have hkept := (hkeeps.sublist.append_right [last]).cons_cons first
  rw [← hends] at hkept
  obtain ⟨hascend, hlead⟩ := positions_of_sublist hkept
  refine ⟨_, hascend, hlead.trans (congrArg _ hpasses.symm), fun i hi => ?_⟩
  have hmem : (points[i], i) ∈ first :: (inner ++ [last]) := by
    rw [← hends, List.mem_zipIdx_iff_getElem?]
    exact List.getElem?_eq_getElem hi
  have hnonneg := allowance_nonneg tolerance highQuality
  obtain ⟨a, b, hab, hai, hib, hnear⟩ := hkeeps.exists_neighbours
    (fun a b => (deviation_start_nonpos a.1 b.1).trans hnonneg)
    (fun a b => (deviation_stop_nonpos a.1 b.1).trans hnonneg)
    (hends ▸ pairwise_zipIdx points) _ hmem
  have hpa := getElem?_of_mem_zipIdx (hkept.subset (hab.subset (by simp : a ∈ [a, b])))
  have hpb := getElem?_of_mem_zipIdx (hkept.subset (hab.subset (by simp : b ∈ [a, b])))
  obtain ⟨ha, hpa⟩ := List.getElem?_eq_some_iff.mp hpa
  obtain ⟨hb, hpb⟩ := List.getElem?_eq_some_iff.mp hpb
  refine ⟨a.2, b.2, ha, hb, hab.map Prod.snd, ?_, ?_, ?_⟩
  · rcases hai with rfl | hlt
    · exact le_rfl
    · exact hlt.le
  · rcases hib with hib | hlt
    · exact (congrArg Prod.snd hib).le
    · exact hlt.le
  · rw [hpa, hpb]
    exact hnear

/-- The coarser pass drops the second point, which is close to the first, and
the reduction drops the third, whose distance from the line is the tolerance
itself. -/
theorem simplify_within_tolerance_of_bend :
    let points : List (Point Rat) := [⟨0, 0, none⟩, ⟨1 / 2, 0, none⟩, ⟨2, 1, none⟩,
      ⟨4, 0, none⟩]
    2 ≤ points.length ∧ ∃ positions : List Nat, positions.Pairwise (· < ·)
      ∧ positions.map (points[·]?) = (simplify points 1 false).map some
      ∧ ∀ i, (hi : i < points.length) → ∃ a b, ∃ (ha : a < points.length)
        (hb : b < points.length), [a, b] <:+: positions ∧ a ≤ i ∧ i ≤ b
          ∧ deviation points[i] points[a] points[b] ≤ allowance 1 false :=
  ⟨by decide, simplify_within_tolerance _ (by decide) 1 false⟩

end Graticule
