import Graticule.Error
import Graticule.Feature
import Graticule.Path.Slice
import Graticule.Snap

/-!
# Requirements

What a caller may ask of a value before working with it: that it is there and
of a certain type, or that a feature, or every feature of a collection, has a
geometry of a certain type. A caller gives its own name, which goes into the
error, and a missing name is an error of its own.

The slices of a feature start with such a requirement, as only a line can be
sliced.
-/

namespace Graticule

variable {α : Type}

namespace GeoJson

/-- Asks for a value of a type, for the caller of this name. -/
def require (value : Option (GeoJson α)) (expected name : String) :
    Except (Error α) Unit :=
  if expected.isEmpty || name.isEmpty then .error .typeAndNameRequired
  else
    match value with
    | none => .error (.wrongInput name expected "null")
    | some v =>
      if v.typeName = expected then .ok ()
      else .error (.wrongInput name expected v.typeName)

end GeoJson

namespace Feature

/-- Asks for a feature with a geometry of a type. -/
def requireGeometry (feature : Option (Feature α)) (expected name : String) :
    Except (Error α) Unit :=
  match feature.bind Feature.geometry with
  | none => .error (.featureRequired name)
  | some g =>
    if g.typeName = expected then .ok ()
    else .error (.wrongInput name expected g.typeName)

/-- Asks for a feature with a geometry of a type, for the caller of this
name. -/
def require (feature : Option (Feature α)) (expected name : String) :
    Except (Error α) Unit :=
  if name.isEmpty then .error (.nameRequired "featureOf")
  else requireGeometry feature expected name

/-- The line a feature consists of. -/
def line (f : Feature α) (name : String) : Except (Error α) (LineString α) := do
  requireGeometry (some f) Geometry.Kind.lineString.name name
  match f.geometry with
  | some (.lineString l) => return l
  | _ => throw (.featureRequired name)

variable [Trig α]

/-- The part of a feature's line between the points of it nearest to two
points. -/
def lineBetween (start stop : Point α) (f : Feature α) :
    Except (Error α) (LineString α) := do
  let l ← f.line "lineSlice"
  Graticule.lineBetween start stop l.points

/-- The part of a feature's line between two distances in a unit. -/
def slice (f : Feature α) (start stop : α) (unit : LengthUnit) :
    Except (Error α) (LineString α) := do
  let l ← f.line "lineSliceAlong"
  Graticule.slice l.points start stop unit

end Feature

/-- Asks for a collection whose features all have a geometry of a type, for the
caller of this name. -/
def FeatureCollection.require (collection : Option (FeatureCollection α))
    (expected name : String) : Except (Error α) Unit :=
  if name.isEmpty then .error (.nameRequired "collectionOf")
  else
    match collection with
    | none => .error (.featureCollectionRequired name)
    | some c =>
      c.features.forM fun f => Feature.requireGeometry (some f) expected name

end Graticule
