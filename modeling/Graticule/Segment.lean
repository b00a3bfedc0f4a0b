import Graticule.Geometry.Leaves
import Graticule.Path
import Graticule.Point.Distinct

/-!
# Crossings of segments

Segments are crossed in the plane of longitudes and latitudes. The two lines
through them meet where two parameters say, one along each segment, 0 at its
start and 1 at its end. Parallel lines do not meet, with one exception: two
segments of no length at one point meet there.

The points in which two geometries meet are those of all pairs of their
segments, ends included, each reported once and in the order of discovery.
-/

namespace Graticule

variable {α : Type}

/-- Where the lines through two segments meet. -/
structure Crossing (α : Type) where
  /-- The point. -/
  point : Point α
  /-- The parameter along the first segment. -/
  first : α
  /-- The parameter along the second segment. -/
  second : α

namespace Crossing

variable [Scalar α]

/-- The point lies inside the first segment, its ends excluded. -/
def insideFirst (c : Crossing α) : Bool := 0 < c.first && c.first < 1

/-- The point lies inside the second segment, its ends excluded. -/
def insideSecond (c : Crossing α) : Bool := 0 < c.second && c.second < 1

/-- The point lies on both segments, their ends included. -/
def onBoth (c : Crossing α) : Bool :=
  (0 ≤ c.first && c.first ≤ 1) && (0 ≤ c.second && c.second ≤ 1)

end Crossing

/-- A segment, by its ends. -/
abbrev Segment (α : Type) := Point α × Point α

/-- Where the lines through two segments meet, if they do. -/
def crossing? [Scalar α] (s t : Segment α) : Option (Crossing α) :=
  let (a₁, a₂) := s
  let (b₁, b₂) := t
  let aLon := a₂.longitude - a₁.longitude
  let aLat := a₂.latitude - a₁.latitude
  let bLon := b₂.longitude - b₁.longitude
  let bLat := b₂.latitude - b₁.latitude
  let denominator := bLat * aLon - bLon * aLat
  if denominator == 0 then
    if a₁ == a₂ && b₁ == b₂ && a₁ == b₁ then some ⟨a₁, 0, 0⟩ else none
  else
    let lat := a₁.latitude - b₁.latitude
    let lon := a₁.longitude - b₁.longitude
    let u := (bLon * lat - bLat * lon) / denominator
    let v := (aLon * lat - aLat * lon) / denominator
    some ⟨⟨a₁.longitude + u * aLon, a₁.latitude + u * aLat, none⟩, u, v⟩

namespace Geometry

/-- The segments of a geometry that is not a collection: those of its lines and
of its rings. -/
def leafSegments : Geometry α → List (Segment α)
  | lineString l => legs l.points
  | multiLineString ls _ => ls.flatMap fun l => legs l.points
  | polygon p => p.rings.flatMap legs
  | multiPolygon ps _ => ps.flatMap fun p => p.rings.flatMap legs
  | _ => []

/-- The segments of a geometry, in the order of the document. -/
def segments (g : Geometry α) : List (Segment α) :=
  g.leaves.flatMap leafSegments

/-- The points in which two geometries meet, each once. -/
def intersections [Scalar α] (g h : Geometry α) : List (Point α) :=
  let others := h.segments
  Point.distinct <| g.segments.flatMap fun s =>
    others.filterMap fun t =>
      (crossing? s t).bind fun c => if c.onBoth then some c.point else none

end Geometry

end Graticule
