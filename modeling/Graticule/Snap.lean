import Graticule.Feature
import Graticule.Segment

/-!
# Snapping to a line

A point is snapped to a line by trying every segment in turn: its start, its
end, and the foot of the perpendicular where that falls inside the segment.
The nearest of all these candidates is taken, and the first of those equally
near; so a vertex between two segments belongs to the earlier one.

The foot is found with a probe: a segment through the point, at right angles to
the bearing of the segment and as long on either side as the farther of its two
ends is away.

The part of a line between two points runs from one snapped point to the other,
in the order of their segments, by the vertices between.
-/

namespace Graticule

variable {α : Type}

/-- A point on a line, and how it was come by. -/
structure Snap (α : Type) where
  /-- The point on the line. -/
  point : Point α
  /-- Its distance from the point that was snapped. -/
  distance : α
  /-- The number of its segment. -/
  index : Nat

namespace Snap

/-- The snapped point as a feature, with its distance and segment as
properties. A distance that is not finite has no number. -/
def toFeature (s : Snap Float) : Feature Float where
  geometry := some (.point s.point)
  properties :=
    [("dist", if Scalar.isFinite s.distance then .number (.real s.distance) else .null),
      ("index", .number (.whole s.index))]

variable [Trig α]

/-- A segment through a point, at right angles to a bearing. -/
def probe (p : Point α) (height direction : α) (unit : LengthUnit) :
    Segment α :=
  (destination p height (direction + 90) unit,
    destination p height (direction - 90) unit)

/-- The foot of the perpendicular from a point to a segment, if it falls inside
the segment. -/
def foot? (p : Point α) (s : Segment α) (height : α) (unit : LengthUnit) :
    Option (Point α) :=
  (crossing? (probe p height (bearing s.1 s.2) unit) s).bind fun c =>
    if c.insideFirst && c.insideSecond then some c.point else none

/-- The candidates of a segment: its start, its end, and the foot if there is
one. -/
def ofSegment (p : Point α) (s : Segment α) (index : Nat) (unit : LengthUnit) :
    List (Snap α) :=
  let toStart := Graticule.distance p s.1 unit
  let toStop := Graticule.distance p s.2 unit
  let foot := foot? p s (Scalar.greater toStart toStop) unit
  ⟨s.1, toStart, index⟩ :: ⟨s.2, toStop, index⟩
    :: (foot.map fun q => ⟨q, Graticule.distance p q unit, index⟩).toList

/-- The candidates of all segments of a line, segment by segment. -/
def candidates (p : Point α) (line : List (Point α)) (unit : LengthUnit) :
    List (Snap α) :=
  (legs line).zipIdx.flatMap fun (s, index) => ofSegment p s index unit

/-- What is nearest before any candidate has been tried. -/
def nowhere : Snap α := ⟨⟨Trig.infinity, Trig.infinity, none⟩, Trig.infinity, 0⟩

/-- The nearer of two, the earlier one unless the later is strictly nearer. -/
def nearer (best next : Snap α) : Snap α :=
  if next.distance < best.distance then next else best

/-- The point of a line nearest to a point. -/
def toLine (p : Point α) (line : List (Point α)) (unit : LengthUnit) :
    Except (Error α) (Snap α) :=
  if line.length < 2 then
    .error (.tooFewCoordinates "nearestPointOnLine" 2 line.length)
  else .ok ((candidates p line unit).foldl nearer nowhere)

end Snap

/-- The part of a line between the points of it nearest to two points. -/
def lineBetween [Trig α] (start stop : Point α) (line : List (Point α)) :
    Except (Error α) (LineString α) := do
  if line.length < 2 then
    throw (.tooFewCoordinates "lineSlice" 2 line.length)
  if start == stop then
    throw .sliceEndpointsEqual
  let a ← Snap.toLine start line default
  let b ← Snap.toLine stop line default
  let (first, last) := if a.index ≤ b.index then (a, b) else (b, a)
  let between := (line.drop (first.index + 1)).take (last.index - first.index)
  return ⟨first.point :: (between ++ [last.point]), none⟩

end Graticule
