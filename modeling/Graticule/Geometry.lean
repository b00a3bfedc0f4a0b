import Graticule.Point

/-!
# Geometries

Seven kinds of geometry: points and lists of points, lines and lists of lines,
polygons and lists of polygons, and collections of geometries of any kind,
nested to any depth. Every kind but the point may carry a box of its own, and
so may the lines and polygons inside a list of them.

A polygon is a list of rings, the outer boundary first and the holes after it.
Nothing here is checked: a line may have one point and a ring may be open.
-/

namespace Graticule

/-- Points joined in order. -/
structure LineString (α : Type) where
  /-- The vertices. -/
  points : List (Point α)
  /-- The box the line carries. -/
  bbox : Option (Box α) := none

/-- An outer ring and the rings of its holes. -/
structure Polygon (α : Type) where
  /-- The rings, the outer one first. -/
  rings : List (List (Point α))
  /-- The box the polygon carries. -/
  bbox : Option (Box α) := none

/-- A geometry of any kind. -/
inductive Geometry (α : Type) where
  | point (position : Point α)
  | multiPoint (points : List (Point α)) (bbox : Option (Box α) := none)
  | lineString (line : LineString α)
  | multiLineString (lines : List (LineString α)) (bbox : Option (Box α) := none)
  | polygon (area : Polygon α)
  | multiPolygon (polygons : List (Polygon α)) (bbox : Option (Box α) := none)
  | collection (members : List (Geometry α)) (bbox : Option (Box α) := none)

variable {α : Type}

namespace Polygon

/-- The outer boundary, if there is one. -/
def outer? (p : Polygon α) : Option (List (Point α)) := p.rings.head?

/-- The rings after the outer one. -/
def holes (p : Polygon α) : List (List (Point α)) := p.rings.tail

end Polygon

namespace Geometry

/-- The kind of a geometry. -/
inductive Kind where
  | point
  | multiPoint
  | lineString
  | multiLineString
  | polygon
  | multiPolygon
  | collection
deriving DecidableEq, Repr

/-- The name a kind goes by in documents and messages. -/
def Kind.name : Kind → String
  | .point => "Point"
  | .multiPoint => "MultiPoint"
  | .lineString => "LineString"
  | .multiLineString => "MultiLineString"
  | .polygon => "Polygon"
  | .multiPolygon => "MultiPolygon"
  | .collection => "GeometryCollection"

/-- The kind of this geometry. -/
def kind : Geometry α → Kind
  | point _ => .point
  | multiPoint .. => .multiPoint
  | lineString _ => .lineString
  | multiLineString .. => .multiLineString
  | polygon _ => .polygon
  | multiPolygon .. => .multiPolygon
  | collection .. => .collection

/-- The name of this geometry's kind. -/
def typeName (g : Geometry α) : String := g.kind.name

/-- The box the geometry carries. A point has no room for one. -/
def bbox? : Geometry α → Option (Box α)
  | point _ => none
  | multiPoint _ b => b
  | lineString l => l.bbox
  | multiLineString _ b => b
  | polygon p => p.bbox
  | multiPolygon _ b => b
  | collection _ b => b

mutual

/-- How many geometries there are in this one, itself included. -/
def size : Geometry α → Nat
  | collection members _ => 1 + sizeSum members
  | _ => 1

/-- The sizes of several geometries together. -/
def sizeSum : List (Geometry α) → Nat
  | [] => 0
  | g :: rest => size g + sizeSum rest

end

theorem size_pos (g : Geometry α) : 0 < size g := by
  cases g <;> simp only [size] <;> omega

theorem sizeSum_append (gs hs : List (Geometry α)) :
    sizeSum (gs ++ hs) = sizeSum gs + sizeSum hs := by
  induction gs with
  | nil => simp [sizeSum]
  | cons g rest ih =>
      simp only [List.cons_append, sizeSum, ih]
      omega

end Geometry

end Graticule
