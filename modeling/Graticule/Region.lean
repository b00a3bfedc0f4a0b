import Graticule.Feature

/-!
# Points in regions

A point lies in a ring when a ray from it to the east crosses an odd number of
the ring's edges. An edge is crossed when one of its ends is above the point
and the other is not, and the point is west of the place where the edge passes
its latitude. The edges go around: the last point is joined to the first.

A point lies in a polygon when it lies in the outer ring and in none of the
holes, and in several polygons when it lies in one of them.
-/

namespace Graticule

variable {α : Type}

/-- The edges of a ring, each point with the one before it; the first edge
comes from the last point. -/
def edges (ring : List (Point α)) : List (Point α × Point α) :=
  match ring.getLast? with
  | some last => (last :: ring).zip ring
  | none => []

variable [Scalar α]

/-- The ray from a point to the east crosses the edge between two points. -/
def crossesEdge (p : Point α) (edge : Point α × Point α) : Bool :=
  let (previous, vertex) := edge
  (decide (p.latitude < vertex.latitude) != decide (p.latitude < previous.latitude))
    && p.longitude
      < (previous.longitude - vertex.longitude) * (p.latitude - vertex.latitude)
          / (previous.latitude - vertex.latitude)
        + vertex.longitude

/-- The point lies in a ring. -/
def inRing (p : Point α) (ring : List (Point α)) : Bool :=
  (edges ring).foldl
    (fun inside edge => if crossesEdge p edge then !inside else inside) false

/-- The point lies in a polygon. -/
def Polygon.contains (area : Polygon α) (p : Point α) : Bool :=
  match area.outer? with
  | some outer => inRing p outer && !area.holes.any (inRing p)
  | none => false

/-- The point lies in at least one of some polygons. -/
def inAny (p : Point α) (polygons : List (Polygon α)) : Bool :=
  polygons.any fun area => area.contains p

/-- The polygons of a geometry that is a polygon or a list of them. -/
def Geometry.polygons? : Geometry α → Option (List (Polygon α))
  | polygon p => some [p]
  | multiPolygon ps _ => some ps
  | _ => none

namespace FeatureCollection

/-- The features of a collection that are points and lie in a polygon of
another. What is not a polygon there is passed over. -/
def within (points regions : FeatureCollection α) : FeatureCollection α :=
  let areas := regions.features.filterMap fun f =>
    f.geometry.bind Geometry.polygons?
  let kept := points.features.filter fun f =>
    match f.geometry with
    | some (.point p) => areas.any (inAny p)
    | _ => false
  ⟨kept, none⟩

end FeatureCollection

end Graticule
