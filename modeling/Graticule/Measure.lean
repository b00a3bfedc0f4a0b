import Graticule.Feature
import Graticule.Geometry.Leaves
import Graticule.Path

/-!
# Length and area

The length of a geometry counts every line and every ring, holes included;
points have none. Its area counts polygons, the outer ring less the holes.
Both add up over the members of a collection, nested or not, and over the
features of a feature collection.

The area of a ring is that of the sphere it cuts off, approximated by a sum
over its corners of the width between the neighbours times the sine of the
corner's latitude. It is positive for a ring that runs clockwise.
-/

namespace Graticule

variable {α : Type}

/-- The corners of a ring: each point with the two after it, around the end. -/
def corners (ring : List (Point α)) : List (Point α × Point α × Point α) :=
  ring.zip ((ring.rotateLeft 1).zip (ring.rotateLeft 2))

variable [Trig α]

/-- The radius of the Earth in meters, at the equator. -/
def earthRadius : α := 6378137

/-- The signed area of a ring in square meters; a ring of fewer than three
points has none. -/
def ringArea (ring : List (Point α)) : α :=
  if ring.length ≤ 2 then 0
  else
    let sum := (corners ring).foldl
      (fun sum (before, corner, after) =>
        sum + (Trig.radians after.longitude - Trig.radians before.longitude)
          * Trig.sin (Trig.radians corner.latitude))
      0
    sum * earthRadius * earthRadius / 2

/-- The area of a polygon in square meters. -/
def Polygon.area (p : Polygon α) : α :=
  match p.outer? with
  | none => 0
  | some outer =>
    Scalar.abs (ringArea outer)
      - Scalar.total (p.holes.map fun hole => Scalar.abs (ringArea hole))

/-- The length of the rings of a polygon. -/
def Polygon.length (p : Polygon α) (unit : LengthUnit) : α :=
  Scalar.total (p.rings.map fun ring => pathLength ring unit)

namespace Geometry

/-- The length of a geometry that is not a collection. -/
def leafLength (unit : LengthUnit) : Geometry α → α
  | lineString l => pathLength l.points unit
  | multiLineString ls _ =>
    Scalar.total (ls.map fun l => pathLength l.points unit)
  | polygon p => p.length unit
  | multiPolygon ps _ => Scalar.total (ps.map fun p => p.length unit)
  | _ => 0

/-- The area of a geometry that is not a collection. -/
def leafArea : Geometry α → α
  | polygon p => p.area
  | multiPolygon ps _ => Scalar.total (ps.map Polygon.area)
  | _ => 0

/-- A measure of every leaf under some geometries, added up from the last leaf
to the first. -/
def sumLeaves (measure : Geometry α → α) (members : List (Geometry α)) : α :=
  (layLeaves [] members).foldl (fun sum leaf => sum + measure leaf) 0

/-- The length of a geometry. -/
def length (unit : LengthUnit) : Geometry α → α
  | collection members _ => sumLeaves (leafLength unit) members
  | g => g.leafLength unit

/-- The area of a geometry in square meters. -/
def area : Geometry α → α
  | collection members _ => sumLeaves leafArea members
  | g => g.leafArea

end Geometry

namespace Feature

/-- The length of a feature's geometry. -/
def length (unit : LengthUnit) (f : Feature α) : α :=
  match f.geometry with
  | some g => g.length unit
  | none => 0

/-- The area of a feature's geometry in square meters. -/
def area (f : Feature α) : α :=
  match f.geometry with
  | some g => g.area
  | none => 0

end Feature

namespace FeatureCollection

/-- The length of all features. -/
def length (unit : LengthUnit) (c : FeatureCollection α) : α :=
  Scalar.total (c.features.map (Feature.length unit))

/-- The area of all features in square meters. -/
def area (c : FeatureCollection α) : α :=
  Scalar.total (c.features.map Feature.area)

end FeatureCollection

namespace GeoJson

/-- The length of a value of any level. -/
def length (unit : LengthUnit) : GeoJson α → α
  | geometry g => g.length unit
  | feature f => f.length unit
  | collection c => c.length unit

/-- The area of a value of any level, in square meters. -/
def area : GeoJson α → α
  | geometry g => g.area
  | feature f => f.area
  | collection c => c.area

end GeoJson

end Graticule
