import Graticule.Planar
import Graticule.Scalar

/-!
# Centroids

The centroid of a geometry is the mean of its positions, weighted by what they
make up: each position of a list of points counts for one, a segment for its
length, a ring for its area. Only what has the highest dimension counts, so
next to an area all lines are nothing, and next to a line all points are.

What has been gathered so far is a `Mass`: a dimension, a weight, and the sum
of the positions by their weights. Adding a mass of a higher dimension replaces
it, one of a lower dimension changes nothing.

A part may be less than it seems. A segment of no length is a point. A ring of
no area is a line, or a point where all its positions are one. A polygon whose
holes take away all of its weight is the line of its outer ring.
-/

namespace Graticule.Planar

variable {α : Type} [Trig α]

namespace Position

/-- The sum of two positions. -/
def add (p q : Position α) : Position α := ⟨p.x + q.x, p.y + q.y⟩

/-- The difference of two positions. -/
def sub (p q : Position α) : Position α := ⟨p.x - q.x, p.y - q.y⟩

/-- A position times a number. -/
def scale (p : Position α) (k : α) : Position α := ⟨p.x * k, p.y * k⟩

/-- A position by a number. -/
def shrink (p : Position α) (k : α) : Position α := ⟨p.x / k, p.y / k⟩

/-- Twice the area of the triangle of two positions and the origin, positive
where they run counterclockwise. -/
def cross (p q : Position α) : α := p.x * q.y - p.y * q.x

end Position

/-- What a centroid is gathered from. -/
structure Mass (α : Type) where
  /-- Zero for points, one for lines, two for areas. -/
  dimension : Nat
  /-- How much has been gathered. -/
  weight : α
  /-- The sum of the positions, each times its weight. -/
  moment : Position α

namespace Mass

/-- The mass of a part with this centroid. -/
def ofPart (dimension : Nat) (centroid : Position α) (weight : α) : Mass α :=
  ⟨dimension, weight, centroid.scale weight⟩

/-- The mass with another one added to it. -/
def add (m n : Mass α) : Mass α :=
  if m.dimension < n.dimension then n
  else if n.dimension < m.dimension then m
  else ⟨m.dimension, m.weight + n.weight, m.moment.add n.moment⟩

/-- The mass with another one taken out of it. One of a higher dimension takes
its place. -/
def sub (m n : Mass α) : Mass α :=
  if m.dimension < n.dimension then n
  else if n.dimension < m.dimension then m
  else ⟨m.dimension, m.weight - n.weight, m.moment.sub n.moment⟩

/-- The centroid of what has been gathered. -/
def centroid (m : Mass α) : Position α := m.moment.shrink m.weight

end Mass

/-- What has been gathered, if anything has. -/
abbrev Gathered (α : Type) := Option (Mass α)

namespace Gathered

/-- Adds a mass. -/
def add (g : Gathered α) (m : Mass α) : Gathered α :=
  match g with
  | some before => some (before.add m)
  | none => some m

/-- What has been gathered has a higher dimension than this. -/
def isAbove (g : Gathered α) (dimension : Nat) : Bool :=
  g.any fun m => dimension < m.dimension

/-- Adds a position. -/
def addPoint (g : Gathered α) (p : Position α) : Gathered α :=
  g.add (.ofPart 0 p 1)

/-- Adds a segment. -/
def addSegment (g : Gathered α) (start stop : Position α) : Gathered α :=
  if start == stop then g.addPoint start
  else
    let along := start.sub stop
    g.add (.ofPart 1 ((start.add stop).shrink 2) (Trig.hypot along.x along.y))

/-- Adds a line. -/
def addLine (g : Gathered α) (line : List (Position α)) : Gathered α :=
  if g.isAbove 1 then g
  else
    match line with
    | [p] => g.addPoint p
    | line =>
      (line.zip line.tail).foldl (fun g (p, q) => g.addSegment p q) g

end Gathered

/-- The segments of a ring with the first position moved to the origin. -/
def shifted (ring : List (Position α)) (origin : Position α) :
    List (Position α × Position α) :=
  (ring.zip ring.tail).map fun (p, q) => (p.sub origin, q.sub origin)

/-- The area of a ring, positive where it runs counterclockwise. A ring of
fewer than three positions has none, nor has one whose ends differ. -/
def signedArea (ring : List (Position α)) : α :=
  match ring.head?, ring.getLast? with
  | some first, some last =>
    if ring.length < 3 then 0
    else if first == last then
      (shifted ring first).foldl (fun sum (p, q) => sum + p.cross q) 0 / 2
    else 0
  | _, _ => 0

/-- Adds a ring. -/
def Gathered.addRing (g : Gathered α) (ring : List (Position α)) :
    Gathered α :=
  match ring with
  | [] => g
  | first :: rest =>
    let area := signedArea ring
    if area == 0 then
      if rest.all (first == ·) then g.addPoint first else g.addLine ring
    else
      let sum := (shifted ring first).foldl
        (fun sum (p, q) => sum.add ((q.add p).scale (p.cross q)))
        (⟨0, 0⟩ : Position α)
      g.add (.ofPart 2 ((sum.shrink (6 * area)).add first) (Scalar.abs area))

/-- Adds a polygon: its outer ring less its holes. -/
def Gathered.addPolygon (g : Gathered α) (p : Polygon α) : Gathered α :=
  let outer : Gathered α := Gathered.addRing none p.outer
  let holes : Gathered α := p.holes.foldl Gathered.addRing none
  match outer, holes with
  | none, _ => g
  | some mass, none => g.add mass
  | some mass, some taken =>
    let left := mass.sub taken
    if left.weight == 0 then g.addLine p.outer else g.add left

mutual

/-- Adds a geometry. -/
def gather (g : Gathered α) : Planar α → Gathered α
  | .point p => g.addPoint p
  | .multiPoint ps =>
    if g.isAbove 0 then g else ps.foldl Gathered.addPoint g
  | .segment p q => g.addSegment p q
  | .lineString ps => g.addLine ps
  | .multiLineString ls =>
    if g.isAbove 1 then g else ls.foldl Gathered.addLine g
  | .polygon p => g.addPolygon p
  | .multiPolygon ps => ps.foldl Gathered.addPolygon g
  | .rectangle r => g.addPolygon r.toPolygon
  | .triangle t => g.addPolygon t.toPolygon
  | .collection ms => gatherAll g ms

/-- Adds geometries in order. -/
def gatherAll (g : Gathered α) : List (Planar α) → Gathered α
  | [] => g
  | p :: rest => gatherAll (gather g p) rest

end

/-- The centroid of a geometry; one without positions has none. -/
def centroid? : Planar α → Option (Position α)
  | .point p => some p
  | g => (gather none g).map Mass.centroid

end Graticule.Planar

namespace Graticule.Geometry

/-- The planar centroid of a geometry; one without positions has none. -/
def centroid? {α : Type} [Trig α] (g : Geometry α) : Option (Point α) :=
  (Planar.ofGeometry g).centroid?.map Planar.Position.toPoint

end Graticule.Geometry
