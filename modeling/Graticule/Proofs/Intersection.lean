import Graticule.Proofs.Crossing
import Graticule.Proofs.Segments

/-!
# The points in which two geometries meet

Every pair of segments is tried, and a pair that meets reports its point. So in
exact arithmetic the points reported are those in which some segment of the one
geometry meets some segment of the other, no more and no less, and each is
reported once. Which of the two comes first decides in what order they are
found, and nothing else, because two segments meet the same way whichever is
named first.
-/

namespace Graticule.Geometry

open Segment

theorem mem_intersections_iff {g h : Geometry Rat} {p : Point Rat} :
    p ∈ g.intersections h ↔ ∃ s ∈ g.segments, ∃ t ∈ h.segments, MeetAt s t p := by
  simp only [intersections, Point.mem_distinct, List.mem_flatMap, List.mem_filterMap,
    ← exists_crossing_iff, Option.bind_eq_some_iff, Option.ite_none_right_eq_some,
    Option.some.injEq]

theorem mem_intersections_comm {g h : Geometry Rat} {p : Point Rat} :
    p ∈ g.intersections h ↔ p ∈ h.intersections g := by
  have hswap {g h : Geometry Rat} (hp : p ∈ g.intersections h) : p ∈ h.intersections g := by
    obtain ⟨s, hs, t, ht, hmeet⟩ := mem_intersections_iff.mp hp
    exact mem_intersections_iff.mpr ⟨t, ht, s, hs, hmeet.symm⟩
  exact ⟨hswap, hswap⟩

/-- The positions reported are those that lie on a segment of either geometry,
two that are not parallel, or are all there is of two segments at one point. No
two points reported are equal, and the order of the two geometries does not
matter for which are. -/
theorem intersections_eq_meetings (g h : Geometry Rat) :
    (∀ longitude latitude,
        (∃ p ∈ g.intersections h, p.longitude = longitude ∧ p.latitude = latitude)
          ↔ ∃ s t, g.HasSegment s ∧ h.HasSegment t
            ∧ (slant s t ≠ 0 ∧ s.Contains longitude latitude ∧ t.Contains longitude latitude
              ∨ ∃ p, s = (p, p) ∧ t = (p, p) ∧ p.longitude = longitude
                ∧ p.latitude = latitude))
      ∧ (g.intersections h).Pairwise (fun p q => (p == q) = false)
      ∧ ∀ p, p ∈ g.intersections h ↔ p ∈ h.intersections g := by
  refine ⟨fun longitude latitude => ⟨?_, ?_⟩, Point.pairwise_distinct _,
    fun _ => mem_intersections_comm⟩
  · rintro ⟨p, hp, rfl, rfl⟩
    obtain ⟨s, hs, t, ht, hmeet⟩ := mem_intersections_iff.mp hp
    refine ⟨s, t, mem_segments_iff.mp hs, mem_segments_iff.mp ht, ?_⟩
    cases hmeet with
    | crossing hslant _ hs ht => exact .inl ⟨hslant, hs, ht⟩
    | point hs ht => exact .inr ⟨p, hs, ht, rfl, rfl⟩
  · rintro ⟨s, t, hs, ht, ⟨hslant, hcs, hct⟩ | ⟨p, hps, hpt, rfl, rfl⟩⟩
    · have hmeet : MeetAt s t ⟨longitude, latitude, none⟩ := .crossing hslant rfl hcs hct
      exact ⟨_, mem_intersections_iff.mpr
        ⟨s, mem_segments_iff.mpr hs, t, mem_segments_iff.mpr ht, hmeet⟩, rfl, rfl⟩
    · exact ⟨p, mem_intersections_iff.mpr
        ⟨s, mem_segments_iff.mpr hs, t, mem_segments_iff.mpr ht, .point hps hpt⟩, rfl, rfl⟩

end Graticule.Geometry
