import Graticule.Proofs.Combination
import Graticule.Region
import Graticule.Scalar.Exact

/-!
# The region of a collection

A point is looked for in the features of a collection one after the other, and in a list of
polygons in one polygon after the other. These two levels do not show: all that counts is
which polygons can be taken from the collection. So two collections after one another have
the points of both, and as combining loses no polygon, it moves no point in or out.

Whether a feature is kept is a matter of the feature alone. So it is kept in its place and
as often as it is there, and kept again when the same is done twice.
-/

namespace Graticule

variable {α : Type} [Scalar α]

namespace Feature

/-- The feature is a point, and one of the polygons that can be taken from a collection
contains it. -/
def LiesIn (f : Feature α) (regions : FeatureCollection α) : Prop :=
  ∃ p t, f.geometry = some (.point p) ∧ Gathered regions.features t
    ∧ ∃ area ∈ t.polygons, area.contains p = true

/-- The feature is a point, and one of some polygons contains it. -/
def liesInAny (polygons : List (Polygon α)) (f : Feature α) : Bool :=
  match f.geometry with
  | some (.point p) => inAny p polygons
  | _ => false

theorem liesInAny_append (polygons others : List (Polygon α)) (f : Feature α) :
    f.liesInAny (polygons ++ others) = (f.liesInAny polygons || f.liesInAny others) := by
  unfold liesInAny
  split
  · exact List.any_append
  · rfl

theorem liesInAny_iff {f : Feature α} {regions : FeatureCollection α} :
    f.liesInAny (Takings.ofFeatures regions.features).polygons = true ↔ f.LiesIn regions := by
  unfold liesInAny
  split
  · next p hp =>
      rw [inAny, List.any_eq_true]
      constructor
      · intro harea
        exact ⟨p, _, hp, Takings.gathered_iff.mpr rfl, harea⟩
      · rintro ⟨q, t, hq, ht, harea⟩
        obtain rfl := Takings.gathered_iff.mp ht
        obtain rfl : p = q := by simpa [hp] using hq
        exact harea
  · next hother =>
      refine iff_of_false Bool.false_ne_true ?_
      rintro ⟨p, -, hp, -⟩
      exact hother p hp

end Feature

/-- Looking in the polygons of each feature is looking in all of them at once. -/
theorem any_inAny (p : Point α) (features : List (Feature α)) :
    (features.filterMap fun f => f.geometry.bind Geometry.polygons?).any (inAny p)
      = inAny p (Takings.ofFeatures features).polygons := by
  rw [inAny, Takings.ofFeatures, List.any_flatMap, List.any_filterMap, List.any_filterMap]
  congr 1
  funext f
  cases f.geometry with
  | none => rfl
  | some g => cases g <;> rfl

namespace FeatureCollection

/-- The features kept are those that lie in a polygon that can be taken. -/
theorem within_eq (points regions : FeatureCollection α) :
    points.within regions
      = ⟨points.features.filter
          (Feature.liesInAny (Takings.ofFeatures regions.features).polygons), none⟩ := by
  rw [within, mk.injEq]
  refine ⟨List.filter_congr fun f _ => ?_, rfl⟩
  unfold Feature.liesInAny
  cases f.geometry with
  | none => rfl
  | some g =>
      cases g with
      | point p => exact any_inAny p _
      | _ => rfl

theorem mem_within {points regions : FeatureCollection α} {f : Feature α} :
    f ∈ (points.within regions).features ↔ f ∈ points.features ∧ f.LiesIn regions := by
  rw [within_eq, List.mem_filter, Feature.liesInAny_iff]

open Classical in
/-- In two collections after one another lie the points that lie in either. -/
theorem within_append (points regions others : FeatureCollection α) (bbox : Option (Box α)) :
    points.within ⟨regions.features ++ others.features, bbox⟩
      = ⟨points.features.filter fun f =>
          f ∈ (points.within regions).features ∨ f ∈ (points.within others).features, none⟩ := by
  rw [within_eq, Takings.ofFeatures_append, mk.injEq]
  refine ⟨List.filter_congr fun f hf => ?_, rfl⟩
  have hsplit := f.liesInAny_append (Takings.ofFeatures regions.features).polygons
    (Takings.ofFeatures others.features).polygons
  rw [Bool.eq_iff_iff, decide_eq_true_iff, mem_within, mem_within, and_iff_right hf,
    and_iff_right hf, ← Feature.liesInAny_iff, ← Feature.liesInAny_iff, ← Bool.or_eq_true,
    ← hsplit]
  rfl

theorem within_within (points regions : FeatureCollection α) :
    (points.within regions).within regions = points.within regions := by
  simp only [within_eq, List.filter_filter, Bool.and_self]

theorem within_combine {points regions combined : FeatureCollection α}
    (h : regions.combine = .ok combined) :
    points.within combined = points.within regions := by
  rw [within_eq, within_eq, ofFeatures_combine h]

open Classical in
/-- The polygons of a collection are one region: the features of another that are kept are
the points in it, in their places, those in two collections after one another are those in
either, those kept are kept again, and combining the collection changes nothing. -/
theorem within_region (points regions others : FeatureCollection α) :
    (∀ f, f ∈ (points.within regions).features ↔ f ∈ points.features ∧ f.LiesIn regions)
      ∧ (∀ bbox, points.within ⟨regions.features ++ others.features, bbox⟩
          = ⟨points.features.filter fun f => f ∈ (points.within regions).features
              ∨ f ∈ (points.within others).features, none⟩)
      ∧ (points.within regions).within regions = points.within regions
      ∧ ∀ combined, regions.combine = .ok combined →
          points.within combined = points.within regions :=
  ⟨fun _ => mem_within, within_append points regions others, within_within points regions,
    fun _ h => within_combine h⟩

/-- A polygon and a list of two, with a line between them, combine to two lists. A point that
one of the three contains lies in the combined collection. -/
theorem within_region_of_two_lists :
    let square (west : Rat) : Polygon Rat :=
      ⟨[[⟨west, 0, none⟩, ⟨west + 2, 0, none⟩, ⟨west + 2, 2, none⟩, ⟨west, 2, none⟩]], none⟩
    let line : LineString Rat := ⟨[⟨0, 0, none⟩, ⟨1, 1, none⟩], none⟩
    let single (east : Rat) : Feature Rat := .ofGeometry (.point ⟨east, 1, none⟩)
    let points : FeatureCollection Rat :=
      ⟨[single 9, single 3, .ofGeometry (.lineString line)], none⟩
    let regions : FeatureCollection Rat := ⟨[.ofGeometry (.polygon (square 0)),
      .ofGeometry (.lineString line), .ofGeometry (.multiPolygon [square 0, square 2])], none⟩
    let combined : FeatureCollection Rat := ⟨[.ofGeometry (.multiLineString [line]),
      .ofGeometry (.multiPolygon [square 0, square 0, square 2])], none⟩
    regions.combine = .ok combined ∧ points.within combined = points.within regions
      ∧ single 3 ∈ (points.within combined).features := by
  intro square line single points regions combined
  obtain ⟨hmem, -, -, hcombine⟩ := within_region points regions regions
  have hcombined : regions.combine = .ok combined := rfl
  have hwithin := hcombine combined hcombined
  have hgathered : Gathered regions.features
      { lines := [line], polygons := [square 0, square 0, square 2] } :=
    Takings.gathered_iff.mpr rfl
  have hlies : (single 3).LiesIn regions :=
    ⟨⟨3, 1, none⟩, _, rfl, hgathered, square 2, by simp, by decide +kernel⟩
  refine ⟨hcombined, hwithin, ?_⟩
  rw [hwithin, hmem]
  exact ⟨by simp [points], hlies⟩

end FeatureCollection

end Graticule
