import Graticule.Sphere

/-!
# Paths

A path is a list of points joined by great circles. Its length is the sum of
its legs, and a distance along it falls on a vertex or inside a leg.

To find where, the walk goes from vertex to vertex with the distance travelled
so far, and stops at the first vertex at or past the target. A target short of
that vertex is reached by going back from it, towards the vertex before. A
target past the last vertex is the last vertex.

Distances that are not numbers compare with nothing. A walk that meets one may
arrive at the last vertex with no reason to stop there, and then there is no
answer: `noSuchVertex`.
-/

namespace Graticule

variable {α : Type}

/-- The legs of a path: each point with the one after it. -/
def legs (points : List (Point α)) : List (Point α × Point α) :=
  points.zip points.tail

variable [Trig α]

/-- The lengths of the legs. -/
def legLengths (points : List (Point α)) (unit : LengthUnit) : List α :=
  (legs points).map fun (a, b) => distance a b unit

/-- The length of a path. -/
def pathLength (points : List (Point α)) (unit : LengthUnit) : α :=
  Scalar.total (legLengths points unit)

/-- The point at an offset from a vertex, measured away from the vertex before
it; an offset below zero lies between the two. -/
def offsetFrom (previous here : Point α) (offset : α) (unit : LengthUnit) :
    Point α :=
  destination here offset (bearing here previous - 180) unit

/-- The point at an offset from a vertex whose predecessor may be missing. -/
def offsetFrom? (previous : Option (Point α)) (here : Point α) (offset : α)
    (unit : LengthUnit) : Except (Error α) (Point α) :=
  match previous with
  | some p => .ok (offsetFrom p here offset unit)
  | none => .error .noSuchVertex

/-- The point at a distance along a path that falls on the vertex reached after
`travelled`, or short of it. -/
def arrive (target : α) (unit : LengthUnit) (travelled : α)
    (previous : Option (Point α)) (here : Point α) :
    Except (Error α) (Point α) :=
  if target - travelled == 0 then .ok here
  else offsetFrom? previous here (target - travelled) unit

/-- Walks on from a vertex that has been reached after `travelled`. -/
def walkTo (target : α) (unit : LengthUnit) (travelled : α)
    (previous : Option (Point α)) :
    (ahead : List (Point α)) → Except (Error α) (Point α)
  | [] => .error .noSuchVertex
  | [here] =>
    if travelled ≤ target then .ok here
    else if target ≤ travelled then arrive target unit travelled previous here
    else .error .noSuchVertex
  | here :: next :: rest =>
    if target ≤ travelled then arrive target unit travelled previous here
    else
      walkTo target unit (travelled + distance here next unit) (some here)
        (next :: rest)

/-- The point at a distance along a path: the first point for a distance that
is not above zero, the last one for a distance beyond the path. -/
def along (points : List (Point α)) (target : α) (unit : LengthUnit) :
    Except (Error α) (Point α) :=
  match points with
  | [] => .error (.tooFewCoordinates "along" 1 0)
  | first :: _ =>
    if target ≤ 0 then .ok first else walkTo target unit 0 none points

end Graticule
