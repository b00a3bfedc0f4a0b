import Graticule.Error
import Graticule.Feature

/-!
# Combining features

The features of a collection are combined by sort: all points into one feature,
all lines into another, all polygons into a third, in the order in which they
stand. Single ones and lists of them count alike, and lines and polygons keep
the boxes they carry. What is neither, a nested collection or a feature without
a geometry, is left out.

Where nothing can be taken from any feature, the collection stays as it is.
-/

namespace Graticule

variable {α : Type}

namespace Geometry

/-- The points a geometry adds to a combination. -/
def loosePoints : Geometry α → List (Point α)
  | point p => [p]
  | multiPoint ps _ => ps
  | _ => []

/-- The lines a geometry adds to a combination. -/
def looseLines : Geometry α → List (LineString α)
  | lineString l => [l]
  | multiLineString ls _ => ls
  | _ => []

/-- The polygons a geometry adds to a combination. -/
def loosePolygons : Geometry α → List (Polygon α)
  | polygon p => [p]
  | multiPolygon ps _ => ps
  | _ => []

end Geometry

namespace FeatureCollection

/-- The geometries of the features that have one. -/
def geometries (c : FeatureCollection α) : List (Geometry α) :=
  c.features.filterMap Feature.geometry

/-- What the features of a collection combine to: at most one geometry for the
points, one for the lines and one for the polygons. -/
def combined (c : FeatureCollection α) : List (Geometry α) :=
  let points := c.geometries.flatMap Geometry.loosePoints
  let lines := c.geometries.flatMap Geometry.looseLines
  let polygons := c.geometries.flatMap Geometry.loosePolygons
  (if points.isEmpty then [] else [.multiPoint points])
    ++ (if lines.isEmpty then [] else [.multiLineString lines])
    ++ (if polygons.isEmpty then [] else [.multiPolygon polygons])

/-- The collection with its features combined; an empty one is refused. -/
def combine (c : FeatureCollection α) :
    Except (Error α) (FeatureCollection α) :=
  if c.features.isEmpty then
    .error (.wrongInput "combine" "FeatureCollection with at least one Feature"
      "empty FeatureCollection")
  else
    match c.combined with
    | [] => .ok c
    | groups => .ok ⟨groups.map Feature.ofGeometry, none⟩

end FeatureCollection

end Graticule
