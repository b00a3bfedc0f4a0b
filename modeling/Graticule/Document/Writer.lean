import Graticule.Document
import Graticule.Json.Writer

/-!
# Writing documents

The members of an object stand in a fixed order: the type first, then what the
object is about, then its box where it has one, and the identifier of a feature
last. Coordinates and boxes are written as doubles, so a whole one keeps its
point.
-/

namespace Graticule.Document

/-- A number of a position or a box. -/
def numberJson (x : Float) : Json := .number (.real x)

/-- A position. -/
def positionJson (position : List Float) : Json :=
  .array (position.map numberJson)

/-- Positions in order. -/
def positionsJson (positions : List (List Float)) : Json :=
  .array (positions.map positionJson)

/-- Lines or rings in order. -/
def linesJson (lines : List (List (List Float))) : Json :=
  .array (lines.map positionsJson)

/-- The member of a box, where there is one. -/
def boxMember : Option (List Float) → List (String × Json)
  | some numbers => [("bbox", .array (numbers.map numberJson))]
  | none => []

/-- The object of a geometry: its type, its content and its box. -/
def geometryObject (name content : String) (value : Json)
    (bbox : Option (List Float)) : Json :=
  .object (("type", .string name) :: (content, value) :: boxMember bbox)

mutual

/-- A geometry as JSON. -/
def Geometry.toJson : Geometry Float → Json
  | .point p b => geometryObject "Point" "coordinates" (positionJson p) b
  | .multiPoint ps b =>
    geometryObject "MultiPoint" "coordinates" (positionsJson ps) b
  | .lineString ps b =>
    geometryObject "LineString" "coordinates" (positionsJson ps) b
  | .multiLineString ls b =>
    geometryObject "MultiLineString" "coordinates" (linesJson ls) b
  | .polygon rs b => geometryObject "Polygon" "coordinates" (linesJson rs) b
  | .multiPolygon ps b =>
    geometryObject "MultiPolygon" "coordinates" (.array (ps.map linesJson)) b
  | .collection ms b =>
    geometryObject "GeometryCollection" "geometries"
      (.array (Geometry.allToJson ms)) b

/-- Geometries as JSON. -/
def Geometry.allToJson : List (Geometry Float) → List Json
  | [] => []
  | g :: rest => Geometry.toJson g :: Geometry.allToJson rest

end

/-- The identifier of a feature as JSON. -/
def identifierJson : FeatureId → Json
  | .text s => .string s
  | .number n => .number n

/-- A feature as JSON. -/
def Feature.toJson (f : Feature Float) : Json :=
  .object
    ([("type", .string "Feature"),
      ("geometry", (f.geometry.map Geometry.toJson).getD .null),
      ("properties", (f.properties.map .object).getD .null)]
      ++ boxMember f.bbox
      ++ (f.id.map fun id => ("id", identifierJson id)).toList)

/-- A feature collection as JSON. -/
def FeatureCollection.toJson (c : FeatureCollection Float) : Json :=
  .object
    ([("type", .string "FeatureCollection"),
      ("features", .array (c.features.map Feature.toJson))]
      ++ boxMember c.bbox)

/-- A document as JSON. -/
def toJson : Document Float → Json
  | .geometry g => g.toJson
  | .feature f => f.toJson
  | .collection c => c.toJson

/-- The text of a document. -/
def write (d : Document Float) : String := d.toJson.text

end Graticule.Document
