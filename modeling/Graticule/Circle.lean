import Graticule.Sphere
import Graticule.Geometry

/-!
# Circles

A circle around a point is approximated by a ring of points at one distance
from it, on bearings evenly spaced from due north on. The ring is closed by its
first point.
-/

namespace Graticule

variable {α : Type} [Trig α]

/-- The points of a circle, without the one that closes it. -/
def circlePoints (center : Point α) (radius : α) (steps : Nat)
    (unit : LengthUnit) : List (Point α) :=
  (List.range steps).map fun i =>
    destination center radius (Scalar.ofNat i * 360 / Scalar.ofNat steps) unit

/-- The circle around a point in a number of steps. -/
def circle (center : Point α) (radius : α) (steps : Nat) (unit : LengthUnit) :
    Except (Error α) (Polygon α) :=
  match circlePoints center radius steps unit with
  | [] => .error (.tooFewSteps steps)
  | first :: rest => .ok ⟨[first :: (rest ++ [first])], none⟩

end Graticule
