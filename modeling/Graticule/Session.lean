import Graticule.Circle
import Graticule.Combine
import Graticule.Document.Text
import Graticule.Extent
import Graticule.Measure
import Graticule.Outline
import Graticule.Planar
import Graticule.Region
import Graticule.Requirement
import Graticule.Simplify

/-!
# Sessions

A session works on one current value, and sets features aside in a bag. A
command replaces the current value, changes the bag, or measures; a command
that needs a value of another sort, or fails, changes nothing.

The geometry of the current value is the value itself, or the geometry of a
feature.
-/

namespace Graticule

/-- A value to work on, and a bag of features. -/
structure Session where
  /-- The current value; there is none at first. -/
  current : Option (GeoJson Float) := none
  /-- The features set aside, in order. -/
  bag : List (Feature Float) := []

namespace Session

/-- What can take the place of the current value. -/
inductive Change where
  /-- Takes this value. -/
  | load (value : GeoJson Float)
  /-- Takes the value of a text. -/
  | read (text : String)
  /-- Writes the value and reads it back. -/
  | reread
  /-- Takes the geometry to the plane and back. -/
  | flatten
  /-- Makes a feature of the geometry. -/
  | feature (properties : Properties) (id : Option FeatureId)
  /-- Makes every point a feature. -/
  | explode
  /-- Combines the features of the collection. -/
  | combine
  /-- Makes a feature of the extent. -/
  | envelope
  /-- Takes the outline of the feature. -/
  | outline (properties : Option Properties)
  /-- Takes the outlines of the feature. -/
  | outlines (properties : Option Properties)
  /-- Cuts the feature's line between two points. -/
  | slice (start stop : Point Float)
  /-- Cuts the feature's line between two distances. -/
  | sliceAlong (start stop : Float) (unit : LengthUnit)
  /-- Simplifies the line. -/
  | simplify (tolerance : Float) (highQuality : Bool)
  /-- Takes a circle. -/
  | circle (center : Point Float) (radius : Float) (steps : Nat) (unit : LengthUnit)
  /-- Takes a feature of the collection by its number. -/
  | pick (index : Nat)
  /-- Keeps the points of the collection that lie in polygons of the bag. -/
  | withinBag
  /-- Takes the features of the bag. -/
  | take

/-- What can be done in a session. -/
inductive Command where
  /-- Replaces the value. -/
  | change (change : Change)
  /-- Puts the features of the value into the bag. -/
  | push
  /-- Empties the bag. -/
  | clear
  /-- Measures the value. -/
  | measure (unit : LengthUnit)

/-- The measures of a value. -/
structure Measures where
  /-- The name of its type. -/
  typeName : String
  /-- Its extent. -/
  extent : Option (Box Float)
  /-- Its length. -/
  length : Float
  /-- Its area in square meters. -/
  area : Float
  /-- The number of its points. -/
  points : Nat
  /-- The number of its points without the last ones of rings. -/
  openPoints : Nat

/-- What a command answers. -/
inductive Reply where
  /-- The new current value. -/
  | value (value : GeoJson Float)
  /-- The number of features in the bag. -/
  | bag (size : Nat)
  /-- The measures of the current value. -/
  | measures (values : Measures)

/-- Why a command does nothing. -/
inductive Refusal where
  /-- There is no value, or it is of another sort than needed. -/
  | wrongState
  /-- The operation fails. -/
  | failed (error : Error Float)

/-- The current value. -/
def value (s : Session) : Except Refusal (GeoJson Float) :=
  match s.current with
  | some v => .ok v
  | none => .error .wrongState

/-- The current value, which has to be a feature. -/
def currentFeature (s : Session) : Except Refusal (Feature Float) :=
  match s.current with
  | some (.feature f) => .ok f
  | _ => .error .wrongState

/-- The current value, which has to be a collection. -/
def currentCollection (s : Session) : Except Refusal (FeatureCollection Float) :=
  match s.current with
  | some (.collection c) => .ok c
  | _ => .error .wrongState

/-- The geometry of the current value. -/
def currentGeometry (s : Session) : Except Refusal (Geometry Float) :=
  match s.current with
  | some (.geometry g) | some (.feature { geometry := some g, .. }) => .ok g
  | _ => .error .wrongState

/-- The answer of an operation. -/
def answer {β : Type} (result : Except (Error Float) β) : Except Refusal β :=
  result.mapError .failed

/-- A plain feature of a geometry. -/
def plain (g : Geometry Float) : GeoJson Float := .feature (.ofGeometry g)

/-- The value that takes the place of the current one. -/
def changed (s : Session) : Change → Except Refusal (GeoJson Float)
  | .load v => return v
  | .read text => answer (GeoJson.read text)
  | .reread => do answer (GeoJson.read (GeoJson.write (← s.value)))
  | .flatten => do
    return GeoJson.geometry (Planar.ofGeometry (← s.currentGeometry)).toGeometry
  | .feature properties id => do
    return GeoJson.feature { geometry := some (← s.currentGeometry), properties, id }
  | .explode => do return GeoJson.collection (← s.value).explode
  | .combine => do
    return GeoJson.collection (← answer (← s.currentCollection).combine)
  | .envelope => do
    match (← s.value).envelope? with
    | some p => return plain (.polygon p)
    | none => throw .wrongState
  | .outline properties => do
    return GeoJson.feature (← answer ((← s.currentFeature).outline properties))
  | .outlines properties => do
    return GeoJson.collection (← answer ((← s.currentFeature).outlines properties))
  | .slice start stop => do
    return plain (.lineString (← answer ((← s.currentFeature).lineBetween start stop)))
  | .sliceAlong start stop unit => do
    return plain (.lineString (← answer ((← s.currentFeature).slice start stop unit)))
  | .simplify tolerance highQuality => do
    match ← s.currentGeometry with
    | .lineString l =>
      return plain (.lineString ⟨Graticule.simplify l.points tolerance highQuality, none⟩)
    | _ => throw .wrongState
  | .circle center radius steps unit => do
    return plain (.polygon (← answer (Graticule.circle center radius steps unit)))
  | .pick index => do
    match (← s.currentCollection).features[index]? with
    | some f => return GeoJson.feature f
    | none => throw .wrongState
  | .withinBag => do
    return GeoJson.collection ((← s.currentCollection).within ⟨s.bag, none⟩)
  | .take => return GeoJson.collection ⟨s.bag, none⟩

/-- The features of a value, a plain one of a geometry. -/
def featuresOf : GeoJson Float → List (Feature Float)
  | .geometry g => [.ofGeometry g]
  | .feature f => [f]
  | .collection c => c.features

/-- The measures of a value, lengths in a unit. -/
def measuresOf (v : GeoJson Float) (unit : LengthUnit) : Measures where
  typeName := v.typeName
  extent := v.extent?
  length := v.length unit
  area := v.area
  points := (v.coordinates false).length
  openPoints := (v.coordinates true).length

/-- What a command answers, and the session after it. -/
def step (s : Session) : Command → Except Refusal (Session × Reply)
  | .change c => do
    let v ← s.changed c
    return ({ s with current := some v }, .value v)
  | .push => do
    let bag := s.bag ++ featuresOf (← s.value)
    return ({ s with bag }, .bag bag.length)
  | .clear => return ({ s with bag := [] }, .bag 0)
  | .measure unit => do return (s, .measures (measuresOf (← s.value) unit))

end Session

end Graticule
