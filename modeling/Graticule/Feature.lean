import Graticule.Geometry.Equality
import Graticule.Json

/-!
# Features, collections, and values of any level

A feature is a geometry, or none, with a bag of properties; it may have an
identifier and a box of its own. A feature collection is a list of features. A
`GeoJson` value is any of the three levels: a geometry, a feature, or a
collection of features.
-/

namespace Graticule

/-- What a feature is identified by. -/
inductive FeatureId where
  | text (value : String)
  | number (value : JsonNumber)

instance : BEq FeatureId where
  beq
    | .text a, .text b => a == b
    | .number a, .number b => a == b
    | _, _ => false

/-- A geometry with properties. -/
structure Feature (α : Type) where
  /-- The geometry, if the feature has one. -/
  geometry : Option (Geometry α)
  /-- The properties, in the order of their keys. -/
  properties : Properties := []
  /-- The identifier, if the feature has one. -/
  id : Option FeatureId := none
  /-- The box the feature carries. -/
  bbox : Option (Box α) := none

/-- Features in order. -/
structure FeatureCollection (α : Type) where
  /-- The features. -/
  features : List (Feature α)
  /-- The box the collection carries. -/
  bbox : Option (Box α) := none

/-- A value of any level. -/
inductive GeoJson (α : Type) where
  | geometry (value : Geometry α)
  | feature (value : Feature α)
  | collection (value : FeatureCollection α)

variable {α : Type}

namespace Feature

/-- The feature of a geometry, with nothing else. -/
def ofGeometry (g : Geometry α) : Feature α := { geometry := some g }

/-- The property of this key. -/
def property? (f : Feature α) (key : String) : Option Json :=
  f.properties.lookup key

instance [Scalar α] : BEq (Feature α) where
  beq a b :=
    a.id == b.id && a.geometry == b.geometry && a.properties == b.properties
      && a.bbox == b.bbox

end Feature

instance [Scalar α] : BEq (FeatureCollection α) where
  beq a b := a.features == b.features && a.bbox == b.bbox

namespace GeoJson

/-- The name of the value's type. -/
def typeName : GeoJson α → String
  | geometry g => g.typeName
  | feature _ => "Feature"
  | collection _ => "FeatureCollection"

/-- The box the value carries. -/
def bbox? : GeoJson α → Option (Box α)
  | geometry g => g.bbox?
  | feature f => f.bbox
  | collection c => c.bbox

instance [Scalar α] : BEq (GeoJson α) where
  beq
    | geometry a, geometry b => a == b
    | feature a, feature b => a == b
    | collection a, collection b => a == b
    | _, _ => false

end GeoJson

end Graticule
