import Graticule.Feature

/-!
# Documents

A document is a GeoJSON value as the format has it: positions and boxes are
lists of numbers of any length, every geometry may carry a box, points too, and
a feature may have no properties at all. The library's own values are stricter,
so a document has to be decoded, and two things can be wrong with it: a position
of fewer than two numbers, and a box of other than four or six.

Decoding reports the first fault. The box of a geometry comes before its
positions or members, the geometry of a feature before the feature's box, and
the features of a collection before the collection's box. The box of a point is
looked at too, although a point has no room for it.

Encoding writes every box as its four sides. What it writes can always be
decoded.
-/

namespace Graticule

namespace Document

/-- A geometry of a document. -/
inductive Geometry (α : Type) where
  | point (position : List α) (bbox : Option (List α))
  | multiPoint (positions : List (List α)) (bbox : Option (List α))
  | lineString (positions : List (List α)) (bbox : Option (List α))
  | multiLineString (lines : List (List (List α))) (bbox : Option (List α))
  | polygon (rings : List (List (List α))) (bbox : Option (List α))
  | multiPolygon (polygons : List (List (List (List α)))) (bbox : Option (List α))
  | collection (members : List (Geometry α)) (bbox : Option (List α))

/-- A feature of a document. -/
structure Feature (α : Type) where
  /-- The geometry, if the feature has one. -/
  geometry : Option (Geometry α)
  /-- The properties, if there are any. -/
  properties : Option Properties
  /-- The identifier, if there is one. -/
  id : Option FeatureId
  /-- The box, if there is one. -/
  bbox : Option (List α)

/-- A feature collection of a document. -/
structure FeatureCollection (α : Type) where
  /-- The features. -/
  features : List (Feature α)
  /-- The box, if there is one. -/
  bbox : Option (List α)

/-- What keeps a document from being decoded. -/
inductive Fault where
  /-- A position has this many numbers, fewer than two. -/
  | position (found : Nat)
  /-- A box has this many numbers, neither four nor six. -/
  | box (found : Nat)
deriving DecidableEq, Repr

/-- What a fault is reported as. -/
def Fault.message : Fault → String
  | .position found => s!"position must have at least 2 elements, found {found}"
  | .box found => s!"bbox must have 4 or 6 elements, found {found}"

end Document

/-- A document: a geometry, a feature, or a feature collection. -/
inductive Document (α : Type) where
  | geometry (value : Document.Geometry α)
  | feature (value : Document.Feature α)
  | collection (value : Document.FeatureCollection α)

variable {α : Type}

namespace Document

/-! ## Encoding -/

/-- A box as its four sides. -/
def encodeBox (b : Option (Box α)) : Option (List α) := b.map Box.sides

/-- Points as positions. -/
def encodePoints (points : List (Point α)) : List (List α) :=
  points.map Point.components

/-- Rings as lists of positions. -/
def encodeRings (rings : List (List (Point α))) : List (List (List α)) :=
  rings.map encodePoints

mutual

/-- A geometry as a document has it. -/
def Geometry.encode : Graticule.Geometry α → Geometry α
  | .point p => .point p.components none
  | .multiPoint ps b => .multiPoint (encodePoints ps) (encodeBox b)
  | .lineString l => .lineString (encodePoints l.points) (encodeBox l.bbox)
  | .multiLineString ls b =>
    .multiLineString (ls.map fun l => encodePoints l.points) (encodeBox b)
  | .polygon p => .polygon (encodeRings p.rings) (encodeBox p.bbox)
  | .multiPolygon ps b =>
    .multiPolygon (ps.map fun p => encodeRings p.rings) (encodeBox b)
  | .collection ms b => .collection (Geometry.encodeAll ms) (encodeBox b)

/-- Geometries as a document has them. -/
def Geometry.encodeAll : List (Graticule.Geometry α) → List (Geometry α)
  | [] => []
  | g :: rest => Geometry.encode g :: Geometry.encodeAll rest

end

/-- A feature as a document has it. -/
def Feature.encode (f : Graticule.Feature α) : Feature α where
  geometry := f.geometry.map Geometry.encode
  properties := some f.properties
  id := f.id
  bbox := encodeBox f.bbox

/-- A feature collection as a document has it. -/
def FeatureCollection.encode (c : Graticule.FeatureCollection α) :
    FeatureCollection α where
  features := c.features.map Feature.encode
  bbox := encodeBox c.bbox

/-- A value as a document. -/
def encode : GeoJson α → Document α
  | .geometry g => .geometry (Geometry.encode g)
  | .feature f => .feature (Feature.encode f)
  | .collection c => .collection (FeatureCollection.encode c)

/-! ## Decoding -/

/-- A position of two numbers or more; the third is the altitude, and any
others are dropped. -/
def decodePosition : List α → Except Fault (Point α)
  | [longitude, latitude] => .ok ⟨longitude, latitude, none⟩
  | longitude :: latitude :: altitude :: _ =>
    .ok ⟨longitude, latitude, some altitude⟩
  | position => .error (.position position.length)

/-- A box of four numbers, or of six with the altitudes of the corners. -/
def decodeBox : Option (List α) → Except Fault (Option (Box α))
  | none => .ok none
  | some [west, south, east, north] =>
    .ok (some (Box.ofSides west south east north))
  | some [west, south, low, east, north, high] =>
    .ok (some ⟨⟨west, south, some low⟩, ⟨east, north, some high⟩⟩)
  | some numbers => .error (.box numbers.length)

/-- Positions in order. -/
def decodePositions (positions : List (List α)) :
    Except Fault (List (Point α)) :=
  positions.mapM decodePosition

/-- Rings in order. -/
def decodeRings (rings : List (List (List α))) :
    Except Fault (List (List (Point α))) :=
  rings.mapM decodePositions

mutual

/-- A geometry of the library, its box first. -/
def Geometry.decode : Geometry α → Except Fault (Graticule.Geometry α)
  | .point position b => do
    let _ ← decodeBox b
    return .point (← decodePosition position)
  | .multiPoint positions b => do
    let bbox ← decodeBox b
    return .multiPoint (← decodePositions positions) bbox
  | .lineString positions b => do
    let bbox ← decodeBox b
    return .lineString ⟨← decodePositions positions, bbox⟩
  | .multiLineString lines b => do
    let bbox ← decodeBox b
    let lines ← lines.mapM fun l => return LineString.mk (← decodePositions l) none
    return .multiLineString lines bbox
  | .polygon rings b => do
    let bbox ← decodeBox b
    return .polygon ⟨← decodeRings rings, bbox⟩
  | .multiPolygon polygons b => do
    let bbox ← decodeBox b
    let polygons ← polygons.mapM fun p => return Polygon.mk (← decodeRings p) none
    return .multiPolygon polygons bbox
  | .collection members b => do
    let bbox ← decodeBox b
    return .collection (← Geometry.decodeAll members) bbox

/-- Geometries in order. -/
def Geometry.decodeAll :
    List (Geometry α) → Except Fault (List (Graticule.Geometry α))
  | [] => return []
  | g :: rest => do
    let first ← Geometry.decode g
    let others ← Geometry.decodeAll rest
    return first :: others

end

/-- A feature of the library, its geometry first; one without properties gets
an empty bag. -/
def Feature.decode (f : Feature α) : Except Fault (Graticule.Feature α) := do
  let geometry ← match f.geometry with
    | some g => some <$> Geometry.decode g
    | none => pure none
  let bbox ← decodeBox f.bbox
  return { geometry, properties := f.properties.getD [], id := f.id, bbox }

/-- A feature collection of the library, its features first. -/
def FeatureCollection.decode (c : FeatureCollection α) :
    Except Fault (Graticule.FeatureCollection α) := do
  let features ← c.features.mapM Feature.decode
  return ⟨features, ← decodeBox c.bbox⟩

/-- The value a document holds. -/
def decode : Document α → Except Fault (GeoJson α)
  | .geometry g => .geometry <$> Geometry.decode g
  | .feature f => .feature <$> Feature.decode f
  | .collection c => .collection <$> FeatureCollection.decode c

end Document

end Graticule
