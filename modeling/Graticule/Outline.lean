import Graticule.Error
import Graticule.Feature

/-!
# Outlines

The outline of a polygon is its rings as lines: one line for a single ring, a
list of lines for several, and no geometry at all for a polygon without rings.
Several polygons have one outline each.

The outline of a feature keeps the properties of the feature unless others are
given. Its identifier and its boxes are not kept.
-/

namespace Graticule

variable {α : Type}

namespace Polygon

/-- The rings of a polygon as lines, if it has any. -/
def outline? (p : Polygon α) : Option (Geometry α) :=
  match p.rings with
  | [] => none
  | [ring] => some (.lineString ⟨ring, none⟩)
  | rings => some (.multiLineString (rings.map fun ring => ⟨ring, none⟩))

/-- The outline of a polygon as a feature. -/
def outline (p : Polygon α) (properties : Properties) : Feature α :=
  { geometry := p.outline?, properties }

end Polygon

/-- The outlines of some polygons, one feature for each. -/
def outlines (polygons : List (Polygon α)) (properties : Properties) :
    FeatureCollection α :=
  ⟨polygons.map fun p => p.outline properties, none⟩

namespace Feature

/-- The name of the type of a feature's geometry. -/
def geometryName (f : Feature α) : String :=
  match f.geometry with
  | some g => g.typeName
  | none => "null"

/-- The outline of a feature that is a polygon. -/
def outline (f : Feature α) (properties : Option Properties) :
    Except (Error α) (Feature α) :=
  match f.geometry with
  | some (.polygon p) => .ok (p.outline (properties.getD f.properties))
  | _ => .error (.wrongInput "polygonToLine" "Polygon" f.geometryName)

/-- The outlines of a feature that is a list of polygons. -/
def outlines (f : Feature α) (properties : Option Properties) :
    Except (Error α) (FeatureCollection α) :=
  match f.geometry with
  | some (.multiPolygon ps _) =>
    .ok (Graticule.outlines ps (properties.getD f.properties))
  | _ => .error (.wrongInput "multiPolygonToLine" "MultiPolygon" f.geometryName)

end Feature

end Graticule
