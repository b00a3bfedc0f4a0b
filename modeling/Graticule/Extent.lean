import Graticule.Coordinates
import Graticule.Sphere

/-!
# Extents

The extent of a value is the box it carries, or else the least box around its
points. A box can be drawn as a polygon, and widened to a square of degrees
along its shorter side, where which side is shorter is a matter of great-circle
distance.

A coordinate that is not a number is skipped, so a side of the least box is one
only where that coordinate is one in every point.
-/

namespace Graticule

variable {α : Type}

namespace Box

/-- The box grown to take in a point. -/
def grow [Scalar α] (b : Box α) (p : Point α) : Box α :=
  .ofSides (Scalar.lesser b.west p.longitude) (Scalar.lesser b.south p.latitude)
    (Scalar.greater b.east p.longitude) (Scalar.greater b.north p.latitude)

/-- The least box around some points; there is none around no points. -/
def around? [Scalar α] (points : List (Point α)) : Option (Box α) :=
  points.head?.map fun p =>
    points.foldl grow (.ofSides p.longitude p.latitude p.longitude p.latitude)

/-- The ring around a box, from its southwest corner eastwards. -/
def ring (b : Box α) : List (Point α) :=
  [⟨b.west, b.south, none⟩, ⟨b.east, b.south, none⟩, ⟨b.east, b.north, none⟩,
    ⟨b.west, b.north, none⟩, ⟨b.west, b.south, none⟩]

/-- A box as a polygon. -/
def toPolygon (b : Box α) : Polygon α := ⟨[b.ring], none⟩

/-- A box as the feature of a polygon. -/
def toFeature (b : Box α) (properties : Properties) (id : Option FeatureId) :
    Feature α :=
  { geometry := some (.polygon b.toPolygon), properties, id }

/-- The box widened along its shorter side until both sides span the same
number of degrees. -/
def square [Trig α] (b : Box α) : Box α :=
  let corner : Point α := ⟨b.west, b.south, none⟩
  let horizontal := distance b.southwest ⟨b.east, b.south, none⟩ default
  let vertical := distance corner ⟨b.west, b.north, none⟩ default
  if vertical ≤ horizontal then
    let middle := (b.south + b.north) / 2
    let half := (b.east - b.west) / 2
    .ofSides b.west (middle - half) b.east (middle + half)
  else
    let middle := (b.west + b.east) / 2
    let half := (b.north - b.south) / 2
    .ofSides (middle - half) b.south (middle + half) b.north

end Box

namespace GeoJson

variable [Scalar α]

/-- The box a value carries, or else the least box around its points. -/
def extent? (value : GeoJson α) : Option (Box α) :=
  match value.bbox? with
  | some b => some b
  | none => Box.around? (value.coordinates false)

/-- The extent of a value as a polygon. -/
def envelope? (value : GeoJson α) : Option (Polygon α) :=
  value.extent?.map Box.toPolygon

end GeoJson

end Graticule
