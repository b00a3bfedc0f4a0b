import Graticule.Angle
import Graticule.Point

/-!
# Points on the sphere

The Earth is a sphere. Distances are great-circle distances in a unit of the
caller's choice, bearings are degrees clockwise from north, and a destination
is where a bearing leads from a point. Longitudes are not wrapped.
-/

namespace Graticule

variable {α : Type} [Trig α]

open Trig

/-- The bearing on which one sets out for another point, from -180 to 180
degrees. -/
def bearing (start stop : Point α) : α :=
  let lon₁ := radians start.longitude
  let lon₂ := radians stop.longitude
  let lat₁ := radians start.latitude
  let lat₂ := radians stop.latitude
  let a := sin (lon₂ - lon₁) * cos lat₂
  let b := cos lat₁ * sin lat₂ - sin lat₁ * cos lat₂ * cos (lon₂ - lon₁)
  degrees (atan2 a b)

/-- Where a distance along a bearing leads. A distance below zero leads the
other way. -/
def destination (start : Point α) (distance bearing : α) (unit : LengthUnit) :
    Point α :=
  let lon₁ := radians start.longitude
  let lat₁ := radians start.latitude
  let heading := radians bearing
  let arc := lengthToRadians distance unit
  let lat₂ := asin (sin lat₁ * cos arc + cos lat₁ * sin arc * cos heading)
  let lon₂ := lon₁
    + atan2 (sin heading * sin arc * cos lat₁) (cos arc - sin lat₁ * sin lat₂)
  ⟨degrees lon₂, degrees lat₂, none⟩

/-- The great-circle distance between two points. -/
def distance (start stop : Point α) (unit : LengthUnit) : α :=
  let dLat := radians (stop.latitude - start.latitude)
  let dLon := radians (stop.longitude - start.longitude)
  let lat₁ := radians start.latitude
  let lat₂ := radians stop.latitude
  let a := Scalar.squared (sin (dLat / 2))
    + Scalar.squared (sin (dLon / 2)) * cos lat₁ * cos lat₂
  radiansToLength (2 * atan2 (sqrt a) (sqrt (1 - a))) unit

/-- The point halfway to another, along the bearing on which one sets out. -/
def midpoint (start stop : Point α) : Point α :=
  destination start (distance start stop .miles / 2) (bearing start stop) .miles

/-- The candidate nearest to a target, the earliest of those equally near; the
target itself where no candidate is at a finite distance. -/
def nearest (target : Point α) (candidates : List (Point α)) : Point α :=
  (candidates.foldl
    (fun (best : Point α × α) p =>
      let d := distance target p default
      if d < best.2 then (p, d) else best)
    (target, infinity)).1

end Graticule
