import Graticule.Outline
import Graticule.Proofs.Additivity
import Graticule.Proofs.Flattening

/-!
# Outlines keep points and length

The outline of a polygon comes in three shapes, and in each of them its lines are the rings
of the polygon in order. What is taken from the lines of the outline is therefore what is
taken from the rings of the polygon, whatever it is: the points with nothing left out, for a
line has no closing point to leave out, and the legs that make up the length.

A polygon without rings has an outline without a geometry, and nothing is taken from either.
-/

namespace Graticule

variable {α γ : Type}

/-- What is taken from the geometry of a feature, where it has one. -/
def Feature.flatten (ofPoint : Point α → List γ) (ofLine ofRing : List (Point α) → List γ)
    (f : Feature α) : List γ :=
  match f.geometry with
  | some g => g.flatten ofPoint ofLine ofRing
  | none => []

/-- From an outline is taken what would be taken from the rings if they were lines. -/
theorem flatten_outline (ofPoint : Point α → List γ) (ofLine ofRing : List (Point α) → List γ)
    (p : Polygon α) (properties : Properties) :
    (p.outline properties).flatten ofPoint ofLine ofRing = p.rings.flatMap ofLine := by
  obtain ⟨rings, bbox⟩ := p
  match rings with
  | [] => rfl
  | [ring] => exact (List.append_nil _).symm
  | first :: second :: rest =>
      show ((first :: second :: rest).map fun ring => (⟨ring, none⟩ : LineString α)).flatMap
        (fun l => ofLine l.points) = _
      rw [List.flatMap_map]

/-! ## Points -/

theorem Feature.coordinates_eq_flatten (dropLast : Bool) (f : Feature α) :
    f.coordinates dropLast
      = f.flatten (fun p => [p]) (fun line => line) (Geometry.ringPart dropLast) := by
  rw [coordinates, flatten]
  cases f.geometry with
  | none => rfl
  | some g => exact Geometry.coordinates_eq_flatten dropLast g

theorem coordinates_outline (dropLast : Bool) (p : Polygon α) (properties : Properties) :
    (p.outline properties).coordinates dropLast = Geometry.coordinates false (.polygon p) := by
  rw [Feature.coordinates_eq_flatten, flatten_outline, Geometry.coordinates_eq_flatten]
  rfl

theorem coordinates_outlines (dropLast : Bool) (ps : List (Polygon α)) (properties : Properties)
    (bbox : Option (Box α)) :
    (outlines ps properties).coordinates dropLast
      = Geometry.coordinates false (.multiPolygon ps bbox) := by
  rw [FeatureCollection.coordinates, outlines, List.flatMap_map, Geometry.coordinates_eq_flatten]
  refine List.flatMap_congr fun p _ => ?_
  rw [coordinates_outline, Geometry.coordinates_eq_flatten]
  rfl

/-! ## Length -/

section

variable [Trig α] [ExactSum α]

theorem Feature.length_eq_total (unit : LengthUnit) (f : Feature α) :
    f.length unit
      = Scalar.total ((f.flatten (fun _ => []) consecutive consecutive).map
          fun (a, b) => distance a b unit) := by
  rw [length, flatten]
  cases f.geometry with
  | none => exact Scalar.total_nil.symm
  | some g =>
      show g.length unit = _
      rw [Geometry.length_eq_total_segments, Geometry.segments_eq_flatten]

theorem length_outline (unit : LengthUnit) (p : Polygon α) (properties : Properties) :
    (p.outline properties).length unit = p.length unit := by
  rw [Feature.length_eq_total, flatten_outline, Geometry.polygonLength_eq_total,
    funext legs_eq_consecutive]

theorem length_outlines (unit : LengthUnit) (ps : List (Polygon α)) (properties : Properties)
    (bbox : Option (Box α)) :
    (outlines ps properties).length unit = Geometry.length unit (.multiPolygon ps bbox) := by
  rw [FeatureCollection.length, outlines, List.map_map]
  show Scalar.total _ = Scalar.total (ps.map fun p => p.length unit)
  congr 1
  exact List.map_congr_left fun p _ => length_outline unit p properties

/-- The feature has the points of a polygon, none left out whether last points of rings are
or not, and the length of the polygon. -/
structure Feature.Traces (unit : LengthUnit) (f : Feature α) (p : Polygon α) : Prop where
  points : ∀ dropLast, f.coordinates dropLast = Geometry.coordinates false (.polygon p)
  length : f.length unit = p.length unit

theorem traces_outline (unit : LengthUnit) (p : Polygon α) (properties : Properties) :
    (p.outline properties).Traces unit p where
  points dropLast := coordinates_outline dropLast p properties
  length := length_outline unit p properties

/-- Where addition is exact, the outline of a polygon has its points and its length. Several
polygons have an outline each, in their order, and together these have the points and the
length of all. -/
theorem outline_keeps (properties : Option Properties) (unit : LengthUnit) :
    (∀ p : Polygon α, (p.outline (properties.getD [])).Traces unit p)
      ∧ ∀ (ps : List (Polygon α)) (bbox : Option (Box α)),
        List.Forall₂ (Feature.Traces unit) (outlines ps (properties.getD [])).features ps
          ∧ (∀ dropLast, (outlines ps (properties.getD [])).coordinates dropLast
            = Geometry.coordinates false (.multiPolygon ps bbox))
          ∧ (outlines ps (properties.getD [])).length unit
            = Geometry.length unit (.multiPolygon ps bbox) := by
  refine ⟨fun p => traces_outline unit p _, fun ps bbox => ⟨?_, fun dropLast => ?_, ?_⟩⟩
  · rw [outlines, List.forall₂_map_left_iff, List.forall₂_same]
    exact fun p _ => traces_outline unit p _
  · exact coordinates_outlines dropLast ps _ bbox
  · exact length_outlines unit ps _ bbox

/-- The second of three polygons has no rings, and a ring of the third is empty and another
open. The points that close the rings stay when last points of rings are left out. -/
theorem outline_keeps_of_three_polygons :
    let a : Point ℝ := ⟨0, 0, none⟩
    let b : Point ℝ := ⟨1, 0, none⟩
    let c : Point ℝ := ⟨0, 1, none⟩
    let d : Point ℝ := ⟨1, 1, some 1⟩
    let triangle : Polygon ℝ := ⟨[[a, b, c, a]], none⟩
    let empty : Polygon ℝ := ⟨[], none⟩
    let holed : Polygon ℝ := ⟨[[], [b, c, d]], none⟩
    (triangle.outline []).coordinates true = [a, b, c, a]
      ∧ (triangle.outline []).length .miles = triangle.length .miles
      ∧ (outlines [triangle, empty, holed] []).coordinates true
        = [a, b, c, a, b, c, d]
      ∧ (outlines [triangle, empty, holed] []).length .miles
        = Geometry.length .miles (.multiPolygon [triangle, empty, holed]) := by
  intro a b c d triangle empty holed
  obtain ⟨hone, hmany⟩ := outline_keeps (α := ℝ) none .miles
  obtain ⟨-, hpoints, hlength⟩ := hmany [triangle, empty, holed] none
  refine ⟨?_, (hone triangle).length, ?_, hlength⟩
  · refine ((hone triangle).points true).trans ?_
    rw [Geometry.coordinates_eq_flatten]
    rfl
  · refine (hpoints true).trans ?_
    rw [Geometry.coordinates_eq_flatten]
    rfl

end

end Graticule
