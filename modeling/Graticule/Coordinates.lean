import Graticule.Error
import Graticule.Feature
import Graticule.Geometry.Leaves

/-!
# Coordinates

The points of a value in the order of the document: those of each leaf, one
leaf after the other. A ring of a polygon ends where it starts, and its last
point can be left out. It is left out without being looked at, so an open ring
loses a point too.
-/

namespace Graticule

variable {α : Type}

/-- The points of rings, with or without the last point of each. -/
def ringPoints (dropLast : Bool) (rings : List (List (Point α))) :
    List (Point α) :=
  rings.flatMap fun ring => if dropLast then ring.dropLast else ring

namespace Geometry

/-- The points of a geometry that is not a collection. -/
def leafPoints (dropLast : Bool) : Geometry α → List (Point α)
  | point p => [p]
  | multiPoint ps _ => ps
  | lineString l => l.points
  | multiLineString ls _ => ls.flatMap LineString.points
  | polygon p => ringPoints dropLast p.rings
  | multiPolygon ps _ => ps.flatMap fun p => ringPoints dropLast p.rings
  | collection .. => []

/-- The points of a geometry, with or without the last point of each ring. -/
def coordinates (dropLast : Bool) (g : Geometry α) : List (Point α) :=
  g.leaves.flatMap (leafPoints dropLast)

end Geometry

namespace Feature

/-- The points of a feature's geometry. -/
def coordinates (dropLast : Bool) (f : Feature α) : List (Point α) :=
  match f.geometry with
  | some g => g.coordinates dropLast
  | none => []

/-- The point of a feature whose geometry is just a point. -/
def point (f : Feature α) : Except (Error α) (Point α) :=
  match f.geometry with
  | some (.point p) => .ok p
  | _ => .error .pointRequired

end Feature

/-- The points of the features of a collection. -/
def FeatureCollection.coordinates (dropLast : Bool) (c : FeatureCollection α) :
    List (Point α) :=
  c.features.flatMap (Feature.coordinates dropLast)

namespace GeoJson

/-- The points of a value of any level. -/
def coordinates (dropLast : Bool) : GeoJson α → List (Point α)
  | geometry g => g.coordinates dropLast
  | feature f => f.coordinates dropLast
  | collection c => c.coordinates dropLast

/-- Every point of a value as a feature of its own, without the last points of
rings. -/
def explode (value : GeoJson α) : FeatureCollection α :=
  ⟨(value.coordinates true).map fun p => .ofGeometry (.point p), none⟩

end GeoJson

end Graticule
