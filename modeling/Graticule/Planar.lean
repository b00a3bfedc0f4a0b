import Graticule.Geometry

/-!
# Planar geometries

In the plane a position is two numbers, without an altitude, and positions
compare by value. A polygon of the plane has an outer ring, if only an empty
one, and its rings are closed: a ring whose ends differ gets its first position
once more. There are shapes besides those of documents, a segment, a rectangle
and a triangle, which are held in a normal form of their own.

Taking a geometry to the plane and back drops altitudes and boxes, closes every
ring, and gives a polygon without rings an empty one.
-/

namespace Graticule

namespace Planar

/-- A position in the plane. -/
structure Position (α : Type) where
  /-- The abscissa. -/
  x : α
  /-- The ordinate. -/
  y : α
deriving Repr

variable {α : Type}

instance [Scalar α] : BEq (Position α) := ⟨fun p q => p.x == q.x && p.y == q.y⟩

namespace Position

/-- The position of a point. -/
def ofPoint (p : Point α) : Position α := ⟨p.longitude, p.latitude⟩

/-- The point at a position. -/
def toPoint (p : Position α) : Point α := ⟨p.x, p.y, none⟩

end Position

/-- A polygon of the plane. -/
structure Polygon (α : Type) where
  /-- The outer ring. -/
  outer : List (Position α)
  /-- The rings of the holes. -/
  holes : List (List (Position α))

/-- The ring with its first position once more at its end, unless it ends there
already. An empty ring stays empty. This is the rule that `geo`, the library the
planar types are from, documents for its polygons: whatever rings a polygon is
made of are closed when it is made. -/
def close [Scalar α] (ring : List (Position α)) : List (Position α) :=
  match ring.head?, ring.getLast? with
  | some first, some last => if first == last then ring else ring ++ [first]
  | _, _ => ring

/-- The polygon of these rings, closed. -/
def Polygon.closed [Scalar α] (outer : List (Position α))
    (holes : List (List (Position α))) : Polygon α :=
  ⟨close outer, holes.map close⟩

/-- A rectangle along the axes. -/
structure Rectangle (α : Type) where
  /-- The corner with the least abscissa and ordinate. -/
  least : Position α
  /-- The corner with the greatest abscissa and ordinate. -/
  greatest : Position α

/-- The rectangle with two opposite corners. -/
def Rectangle.ofCorners [Scalar α] (p q : Position α) : Rectangle α :=
  let (west, east) := if p.x < q.x then (p.x, q.x) else (q.x, p.x)
  let (south, north) := if p.y < q.y then (p.y, q.y) else (q.y, p.y)
  ⟨⟨west, south⟩, ⟨east, north⟩⟩

/-- The rectangle as a polygon, from its southeast corner northwards. -/
def Rectangle.toPolygon [Scalar α] (r : Rectangle α) : Polygon α :=
  .closed
    [⟨r.greatest.x, r.least.y⟩, ⟨r.greatest.x, r.greatest.y⟩,
      ⟨r.least.x, r.greatest.y⟩, ⟨r.least.x, r.least.y⟩,
      ⟨r.greatest.x, r.least.y⟩]
    []

/-- A triangle. -/
structure Triangle (α : Type) where
  /-- The corner it starts from. -/
  first : Position α
  /-- The next corner. -/
  second : Position α
  /-- The last corner. -/
  third : Position α

/-- The triangle with these corners, in reverse if they run clockwise. -/
def Triangle.ofCorners [Scalar α] (a b c : Position α) : Triangle α :=
  let turn := (b.x - a.x) * (c.y - a.y) - (b.y - a.y) * (c.x - a.x)
  if turn < 0 then ⟨c, b, a⟩ else ⟨a, b, c⟩

/-- The triangle as a polygon. -/
def Triangle.toPolygon [Scalar α] (t : Triangle α) : Polygon α :=
  .closed [t.first, t.second, t.third, t.first] []

end Planar

/-- A geometry of the plane. -/
inductive Planar (α : Type) where
  | point (position : Planar.Position α)
  | multiPoint (positions : List (Planar.Position α))
  | segment (start stop : Planar.Position α)
  | lineString (positions : List (Planar.Position α))
  | multiLineString (lines : List (List (Planar.Position α)))
  | polygon (area : Planar.Polygon α)
  | multiPolygon (polygons : List (Planar.Polygon α))
  | rectangle (shape : Planar.Rectangle α)
  | triangle (shape : Planar.Triangle α)
  | collection (members : List (Planar α))

namespace Planar

variable {α : Type}

/-- Points as positions. -/
def positions (points : List (Point α)) : List (Position α) :=
  points.map Position.ofPoint

/-- Positions as points. -/
def points (positions : List (Position α)) : List (Point α) :=
  positions.map Position.toPoint

variable [Scalar α]

/-- A polygon in the plane. -/
def Polygon.ofPolygon (p : Graticule.Polygon α) : Polygon α :=
  match p.rings with
  | outer :: holes => .closed (positions outer) (holes.map positions)
  | [] => .closed [] []

omit [Scalar α] in
/-- A polygon of the plane as a polygon. -/
def Polygon.toPolygon (p : Polygon α) : Graticule.Polygon α :=
  ⟨points p.outer :: p.holes.map points, none⟩

mutual

/-- A geometry in the plane. -/
def ofGeometry : Geometry α → Planar α
  | .point p => .point (.ofPoint p)
  | .multiPoint ps _ => .multiPoint (positions ps)
  | .lineString l => .lineString (positions l.points)
  | .multiLineString ls _ => .multiLineString (ls.map fun l => positions l.points)
  | .polygon p => .polygon (.ofPolygon p)
  | .multiPolygon ps _ => .multiPolygon (ps.map Polygon.ofPolygon)
  | .collection ms _ => .collection (ofGeometries ms)

/-- Geometries in the plane. -/
def ofGeometries : List (Geometry α) → List (Planar α)
  | [] => []
  | g :: rest => ofGeometry g :: ofGeometries rest

end

mutual

/-- A geometry of the plane as a geometry: a segment is a line of two points, a
rectangle and a triangle are polygons. -/
def toGeometry : Planar α → Geometry α
  | .point p => .point p.toPoint
  | .multiPoint ps => .multiPoint (points ps)
  | .segment p q => .lineString ⟨[p.toPoint, q.toPoint], none⟩
  | .lineString ps => .lineString ⟨points ps, none⟩
  | .multiLineString ls => .multiLineString (ls.map fun l => ⟨points l, none⟩)
  | .polygon p => .polygon p.toPolygon
  | .multiPolygon ps => .multiPolygon (ps.map Polygon.toPolygon)
  | .rectangle r => .polygon r.toPolygon.toPolygon
  | .triangle t => .polygon t.toPolygon.toPolygon
  | .collection ms => .collection (toGeometries ms)

/-- Geometries of the plane as geometries. -/
def toGeometries : List (Planar α) → List (Geometry α)
  | [] => []
  | g :: rest => toGeometry g :: toGeometries rest

end

end Planar

end Graticule
