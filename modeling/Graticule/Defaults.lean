import Graticule.Circle
import Graticule.Simplify

/-!
# Defaults

What stands in for the arguments a caller leaves out, and the operations that
take them from there.
-/

namespace Graticule

/-- The values of arguments that are left out. -/
structure Defaults where
  /-- The unit of lengths. -/
  unit : LengthUnit := default
  /-- The number of steps of a circle. -/
  circleSteps : Nat := 64
  /-- The tolerance of a simplification, in degrees. -/
  tolerance : Float := 1.0
  /-- Simplification leaves the coarser pass out. -/
  highQuality : Bool := false

namespace Defaults

/-- A line without the points that matter less than the default tolerance. -/
def simplify (d : Defaults) (points : List (Point Float)) : List (Point Float) :=
  Graticule.simplify points d.tolerance d.highQuality

/-- The circle around a point in the default unit and number of steps. -/
def circle (d : Defaults) (center : Point Float) (radius : Float) :
    Except (Error Float) (Polygon Float) :=
  Graticule.circle center radius d.circleSteps d.unit

end Defaults

end Graticule
