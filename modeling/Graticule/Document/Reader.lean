import Graticule.Document
import Graticule.Json.Reader
import Graticule.Json.Writer

/-!
# Reading documents

A document is read from a JSON object, and the first thing that is wrong with
it is reported. A geometry shows its box first, then its type, then its
coordinates or members; a feature its type, geometry, properties, identifier
and box; a feature collection its type, box and features. Other members are
passed over.

Positions have to be arrays of two values or more before their values are
looked at. How many numbers a position or a box has beyond that is not asked
here: that is for `Document.decode` to say.
-/

namespace Graticule

namespace Document

/-- What keeps a text from being read as a document. -/
inductive ReadFault where
  /-- The text is not JSON. -/
  | malformed
  /-- An object is needed in place of this value. -/
  | notObject (found : Json)
  /-- The document names no type that documents have. -/
  | noType
  /-- No geometry has this type. -/
  | unknownGeometry (name : String)
  /-- Something of this type stands where a feature is needed. -/
  | notFeature (name : String)
  /-- A member of this name is needed. -/
  | missing (name : String)
  /-- A string is needed in place of this value. -/
  | notString (found : Json)
  /-- An array is needed in place of this. -/
  | notArray (found : String)
  /-- A position has this many values, fewer than two. -/
  | shortPosition (found : Nat)
  /-- A position holds a value that is not a number. -/
  | notNumber
  /-- A box is not an array but this value. -/
  | boxNotArray (found : Json)
  /-- A box holds a value that is not a number. -/
  | boxNotNumeric
  /-- The geometry of a feature is this value. -/
  | badGeometry (found : Json)
  /-- The properties of a feature are this value. -/
  | badProperties (found : Json)
  /-- The identifier of a feature is this value. -/
  | badIdentifier (found : Json)

/-- What a fault is reported as. -/
def ReadFault.message : ReadFault → String
  | malformed => "Error while deserializing JSON"
  | notObject v => "Expected an owned Object, but got `" ++ v.text ++ "`"
  | noType =>
    "Expected a Feature, FeatureCollection, or Geometry, but got an empty type"
  | unknownGeometry name =>
    "Encountered an unknown 'geometry' object type: `" ++ name ++ "`"
  | notFeature name => "Expected a Feature mapping, but got a `" ++ name ++ "`"
  | missing name =>
    "Expected a GeoJSON property for `" ++ name ++ "`, but got None"
  | notString v => "Expected a String value, but got a `" ++ v.text ++ "`"
  | notArray found => "Expected an Array value, but got `" ++ found ++ "`"
  | shortPosition found =>
    "A position must contain two or more elements, but got `" ++ toString found
      ++ "`"
  | notNumber => "Expected a floating-point value, but got None"
  | boxNotArray v =>
    "Encountered non-array value for a 'bbox' object: `" ++ v.text ++ "`"
  | boxNotNumeric => "Encountered non-numeric value within 'bbox' array"
  | badGeometry v =>
    "Encountered neither object type nor null type for 'geometry' field on 'feature' object: `"
      ++ v.text ++ "`"
  | badProperties v =>
    "Encountered neither object type nor null type for 'properties' object: `"
      ++ v.text ++ "`"
  | badIdentifier v =>
    "Encountered neither number type nor string type for 'id' field on 'feature' object: `"
      ++ v.text ++ "`"

/-- The members of a JSON object. -/
abbrev Members := List (String × Json)

/-- The member of this name, which has to be there. -/
def require (members : Members) (name : String) : Except ReadFault Json :=
  match members.lookup name with
  | some v => .ok v
  | none => .error (.missing name)

/-- The name of the type of an object inside a document. -/
def typeOf (members : Members) : Except ReadFault String := do
  match ← require members "type" with
  | .string name => .ok name
  | v => .error (.notString v)

/-- The box of an object, if it has one; a null stands for none. -/
def boxOf (members : Members) : Except ReadFault (Option (List Float)) :=
  match members.lookup "bbox" with
  | none | some .null => .ok none
  | some (.array elements) =>
    some <$> elements.mapM fun
      | .number n => .ok n.toFloat
      | _ => .error .boxNotNumeric
  | some v => .error (.boxNotArray v)

/-- The elements of an array somewhere in coordinates, each read in its turn. -/
def listOf {β : Type} (read : Json → Except ReadFault β) :
    Json → Except ReadFault (List β)
  | .array elements => elements.mapM read
  | _ => .error (.notArray "None")

/-- A position: its length is looked at before its values. -/
def position : Json → Except ReadFault (List Float)
  | .array elements =>
    if elements.length < 2 then .error (.shortPosition elements.length)
    else elements.mapM fun
      | .number n => .ok n.toFloat
      | _ => .error .notNumber
  | _ => .error (.notArray "None")

/-- What a value is called where an array of objects is needed. -/
def sort : Json → String
  | .null => "Null"
  | .boolean _ => "Bool"
  | .number _ => "Number"
  | .string _ => "String"
  | .array _ => "Array"
  | .object _ => "Object"

theorem sizeOf_lookup_lt {members : Members} {name : String} {v : Json}
    (h : members.lookup name = some v) : sizeOf v < sizeOf members := by
  induction members with
  | nil => simp at h
  | cons m rest ih =>
      obtain ⟨k, w⟩ := m
      simp only [List.lookup_cons] at h
      split at h
      · simp only [Option.some.injEq] at h
        subst h
        simp only [List.cons.sizeOf_spec, Prod.mk.sizeOf_spec]
        omega
      · have := ih h
        simp only [List.cons.sizeOf_spec]
        omega

mutual

/-- A geometry, from the members of its object. -/
def Geometry.read (members : Members) : Except ReadFault (Geometry Float) := do
  let bbox ← boxOf members
  let name ← typeOf members
  match name with
  | "Point" =>
    return .point (← position (← require members "coordinates")) bbox
  | "MultiPoint" =>
    return .multiPoint (← listOf position (← require members "coordinates")) bbox
  | "LineString" =>
    return .lineString (← listOf position (← require members "coordinates")) bbox
  | "MultiLineString" =>
    return .multiLineString
      (← listOf (listOf position) (← require members "coordinates")) bbox
  | "Polygon" =>
    return .polygon
      (← listOf (listOf position) (← require members "coordinates")) bbox
  | "MultiPolygon" =>
    return .multiPolygon
      (← listOf (listOf (listOf position)) (← require members "coordinates")) bbox
  | "GeometryCollection" =>
    match _within : members.lookup "geometries" with
    | none => .error (.missing "geometries")
    | some (.array elements) =>
      return .collection (← Geometry.readAll elements) bbox
    | some v => .error (.notArray (sort v))
  | name => .error (.unknownGeometry name)
termination_by sizeOf members
decreasing_by
  have := sizeOf_lookup_lt _within
  simp only [Json.array.sizeOf_spec] at this
  omega

/-- The members of a geometry collection. -/
def Geometry.readAll : List Json → Except ReadFault (List (Geometry Float))
  | [] => return []
  | .object members :: rest => do
    let first ← Geometry.read members
    let others ← Geometry.readAll rest
    return first :: others
  | v :: _ => .error (.notObject v)
termination_by elements => sizeOf elements
decreasing_by
  · simp only [List.cons.sizeOf_spec, Json.object.sizeOf_spec]
    omega
  · simp only [List.cons.sizeOf_spec]
    omega

end

/-- The geometry of a feature: an object, or null for none. -/
def geometryOf (members : Members) :
    Except ReadFault (Option (Geometry Float)) := do
  match ← require members "geometry" with
  | .object g => some <$> Geometry.read g
  | .null => .ok none
  | v => .error (.badGeometry v)

/-- The properties of a feature: an object; null and nothing stand for none. -/
def propertiesOf (members : Members) : Except ReadFault (Option Properties) :=
  match members.lookup "properties" with
  | some (.object properties) => .ok (some properties)
  | none | some .null => .ok none
  | some v => .error (.badProperties v)

/-- The identifier of a feature: a number or a string, if there is one. -/
def identifierOf (members : Members) : Except ReadFault (Option FeatureId) :=
  match members.lookup "id" with
  | some (.number n) => .ok (some (.number n))
  | some (.string s) => .ok (some (.text s))
  | none => .ok none
  | some v => .error (.badIdentifier v)

/-- A feature, from the members of its object. -/
def Feature.read (members : Members) : Except ReadFault (Feature Float) := do
  let name ← typeOf members
  if name ≠ "Feature" then
    throw (.notFeature name)
  let geometry ← geometryOf members
  let properties ← propertiesOf members
  let id ← identifierOf members
  let bbox ← boxOf members
  return { geometry, properties, id, bbox }

/-- A feature collection, from the members of its object. -/
def FeatureCollection.read (members : Members) :
    Except ReadFault (FeatureCollection Float) := do
  let bbox ← boxOf members
  match ← require members "features" with
  | .array elements =>
    let features ← elements.mapM fun
      | .object inner => Feature.read inner
      | v => .error (.notObject v)
    return { features, bbox }
  | v => .error (.notArray (sort v))

/-- The types of geometries. -/
def geometryNames : List String :=
  ["Point", "MultiPoint", "LineString", "MultiLineString", "Polygon",
    "MultiPolygon", "GeometryCollection"]

/-- A document, from a JSON value with its objects in order. -/
def ofJson : Json → Except ReadFault (Document Float)
  | .object members =>
    match members.lookup "type" with
    | some (.string name) =>
      if name = "Feature" then .feature <$> Feature.read members
      else if name = "FeatureCollection" then
        .collection <$> FeatureCollection.read members
      else if name ∈ geometryNames then .geometry <$> Geometry.read members
      else .error .noType
    | _ => .error (.unknownGeometry "type")
  | v => .error (.notObject v)

/-- The document a text holds. -/
def read (text : String) : Except ReadFault (Document Float) :=
  match Json.read? Json.documentRules text with
  | some v => ofJson v.canonical
  | none => .error .malformed

end Document

end Graticule
