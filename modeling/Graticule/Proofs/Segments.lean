import Graticule.Proofs.Leaves
import Graticule.Segment
import Mathlib.Data.List.Infix

/-!
# The segments of a geometry

A geometry has paths, its lines and the rings of its polygons, at any depth, and
points and lists of points have none. Its segments are the pairs of points that
follow one another on one of its paths. `HasPath` says this by the constructors
of a geometry, without the walk over its leaves.

A ring has no segment of its own from its last point back to its first, and two
lines are not joined.
-/

namespace Graticule

variable {α : Type}

theorem mem_legs_iff {points : List (Point α)} {a b : Point α} :
    (a, b) ∈ legs points ↔ [a, b] <:+: points := by
  induction points with
  | nil => simp [legs]
  | cons p points ih =>
      cases points with
      | nil =>
          refine iff_of_false (by simp [legs]) fun h => ?_
          have := h.length_le
          simp at this
      | cons q points =>
          have hlegs : legs (p :: q :: points) = (p, q) :: legs (q :: points) := by
            rfl
          have hinfix : [a, b] <:+: p :: q :: points
              ↔ [a, b] <+: p :: q :: points ∨ [a, b] <:+: q :: points := List.infix_cons_iff
          rw [hlegs, List.mem_cons, ih, hinfix, List.cons_prefix_cons, List.cons_prefix_cons,
            Prod.mk.injEq]
          simp

namespace Geometry

/-- A geometry has a path: a line or a ring of it, or of a geometry inside it. -/
inductive HasPath : Geometry α → List (Point α) → Prop where
  | lineString (line : LineString α) : HasPath (lineString line) line.points
  | multiLineString {lines bbox} {line : LineString α} (h : line ∈ lines) :
      HasPath (multiLineString lines bbox) line.points
  | polygon {area : Polygon α} {ring} (h : ring ∈ area.rings) : HasPath (polygon area) ring
  | multiPolygon {polygons bbox ring} {area : Polygon α} (h : area ∈ polygons)
      (hring : ring ∈ area.rings) : HasPath (multiPolygon polygons bbox) ring
  | collection {members bbox path} {member : Geometry α} (h : member ∈ members)
      (hpath : HasPath member path) : HasPath (collection members bbox) path

/-- A geometry has a segment: its ends follow one another on a path. -/
def HasSegment (g : Geometry α) (s : Segment α) : Prop :=
  ∃ path, g.HasPath path ∧ [s.1, s.2] <:+: path

/-! ## Segments by recursion -/

theorem segments_collection (members : List (Geometry α)) (bbox : Option (Box α)) :
    (collection members bbox).segments = members.flatMap segments := by
  rw [segments, leaves_collection, List.flatMap_assoc]
  rfl

theorem segments_of_ne_collection {g : Geometry α}
    (h : ∀ members bbox, g = collection members bbox → False) :
    g.segments = leafSegments g := by
  rw [segments, leaves_of_ne_collection h, List.flatMap_singleton]

/-! ## Segments by paths -/

theorem mem_segments_of_hasPath {g : Geometry α} {path : List (Point α)} {s : Segment α}
    (hpath : g.HasPath path) (h : s ∈ legs path) : s ∈ g.segments := by
  induction hpath with
  | lineString line =>
      rw [segments_of_ne_collection (by simp)]
      exact h
  | multiLineString hline =>
      rw [segments_of_ne_collection (by simp)]
      exact List.mem_flatMap.mpr ⟨_, hline, h⟩
  | polygon hring =>
      rw [segments_of_ne_collection (by simp)]
      exact List.mem_flatMap.mpr ⟨_, hring, h⟩
  | multiPolygon harea hring =>
      rw [segments_of_ne_collection (by simp)]
      exact List.mem_flatMap.mpr ⟨_, harea, List.mem_flatMap.mpr ⟨_, hring, h⟩⟩
  | collection hmember _ ih =>
      rw [segments_collection]
      exact List.mem_flatMap.mpr ⟨_, hmember, ih h⟩

theorem exists_path_of_mem_segments {g : Geometry α} {s : Segment α} (h : s ∈ g.segments) :
    ∃ path, g.HasPath path ∧ s ∈ legs path := by
  induction g using nested_induction with
  | leaf g hg =>
      rw [segments_of_ne_collection hg] at h
      cases g with
      | point p => exact absurd h List.not_mem_nil
      | multiPoint points bbox => exact absurd h List.not_mem_nil
      | lineString line => exact ⟨_, .lineString line, h⟩
      | multiLineString lines bbox =>
          obtain ⟨line, hline, h⟩ := List.mem_flatMap.mp h
          exact ⟨_, .multiLineString hline, h⟩
      | polygon area =>
          obtain ⟨ring, hring, h⟩ := List.mem_flatMap.mp h
          exact ⟨_, .polygon hring, h⟩
      | multiPolygon polygons bbox =>
          obtain ⟨area, harea, h⟩ := List.mem_flatMap.mp h
          obtain ⟨ring, hring, h⟩ := List.mem_flatMap.mp h
          exact ⟨_, .multiPolygon harea hring, h⟩
      | collection members bbox => exact (hg members bbox rfl).elim
  | collection members bbox ih =>
      rw [segments_collection] at h
      obtain ⟨member, hmember, h⟩ := List.mem_flatMap.mp h
      obtain ⟨path, hpath, h⟩ := ih member hmember h
      exact ⟨path, .collection hmember hpath, h⟩

theorem mem_segments_iff {g : Geometry α} {s : Segment α} :
    s ∈ g.segments ↔ g.HasSegment s := by
  simp only [HasSegment, ← mem_legs_iff]
  constructor
  · exact exists_path_of_mem_segments
  · rintro ⟨path, hpath, h⟩
    exact mem_segments_of_hasPath hpath h

end Geometry

end Graticule
