import Graticule.Scalar

/-!
# Units of length

A unit is known by how many of it make one radian of arc on the Earth. Names
are case-sensitive, and the British spellings of the metric units name the same
units; each unit is written by one canonical name.
-/

namespace Graticule

/-- Units a distance can be given in. Degrees and radians measure the arc
itself. -/
inductive LengthUnit where
  | miles
  | nauticalMiles
  | kilometers
  | meters
  | centimeters
  | feet
  | yards
  | inches
  | degrees
  | radians
deriving DecidableEq, Repr

namespace LengthUnit

/-- Kilometers stand in where no unit is given. -/
instance : Inhabited LengthUnit := ⟨kilometers⟩

/-- Every unit, in the order of declaration. -/
def all : List LengthUnit :=
  [miles, nauticalMiles, kilometers, meters, centimeters, feet, yards, inches,
    degrees, radians]

/-- How many of the unit make one radian of arc. -/
def perRadian {α : Type} [Scalar α] : LengthUnit → α
  | miles => 3960
  | nauticalMiles => 3441.145
  | kilometers => 6373
  | meters => 6373000
  | centimeters => 637300000
  | feet => 20908792.65
  | yards => 6969600
  | inches => 250905600
  | degrees => 57.2957795
  | radians => 1

/-- The canonical name. -/
def name : LengthUnit → String
  | miles => "miles"
  | nauticalMiles => "nauticalmiles"
  | kilometers => "kilometers"
  | meters => "meters"
  | centimeters => "centimeters"
  | feet => "feet"
  | yards => "yards"
  | inches => "inches"
  | degrees => "degrees"
  | radians => "radians"

/-- The unit a name stands for: a canonical name, or a British spelling of a
metric one. -/
def ofName? : String → Option LengthUnit
  | "miles" => some miles
  | "nauticalmiles" => some nauticalMiles
  | "kilometers" | "kilometres" => some kilometers
  | "meters" | "metres" => some meters
  | "centimeters" | "centimetres" => some centimeters
  | "feet" => some feet
  | "yards" => some yards
  | "inches" => some inches
  | "degrees" => some degrees
  | "radians" => some radians
  | _ => none

/-- Every canonical name is read as its unit. -/
theorem ofName?_name (u : LengthUnit) : ofName? u.name = some u := by
  cases u <;> rfl

end LengthUnit

end Graticule
