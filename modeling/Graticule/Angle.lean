import Graticule.Error
import Graticule.Unit

/-!
# Lengths and angles

A length on the sphere is an arc, so a unit turns it into radians and back. The
conversions between degrees and radians here wrap an angle to less than one
turn first, keeping its sign.
-/

namespace Graticule

variable {α : Type}

/-- A length in radians of arc. -/
def lengthToRadians [Scalar α] (length : α) (unit : LengthUnit) : α :=
  length / unit.perRadian

/-- Radians of arc as a length. -/
def radiansToLength [Scalar α] (radians : α) (unit : LengthUnit) : α :=
  radians * unit.perRadian

/-- Radians in degrees, wrapped to less than one turn. -/
def radiansToDegrees [Trig α] (radians : α) : α :=
  Trig.rem radians (2 * Trig.pi) * 180 / Trig.pi

/-- Degrees in radians, wrapped to less than one turn. -/
def degreesToRadians [Trig α] (degrees : α) : α :=
  Trig.rem degrees 360 * Trig.pi / 180

/-- A length in degrees of arc. -/
def lengthToDegrees [Trig α] (length : α) (unit : LengthUnit) : α :=
  radiansToDegrees (lengthToRadians length unit)

/-- A length in another unit; one below zero is refused. -/
def convertLength [Scalar α] (length : α) (source target : LengthUnit) :
    Except (Error α) α :=
  if length < 0 then .error (.negativeDistance length)
  else .ok (radiansToLength (lengthToRadians length source) target)

end Graticule
