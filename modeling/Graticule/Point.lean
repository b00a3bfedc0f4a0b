import Graticule.Scalar

/-!
# Points and boxes

A point is a position in degrees, with an altitude or without. A box is given
by two corners, and each of them may carry an altitude too, so a box compares
by its corners and not only by its four sides.

Points are equal when their components are the same one by one, and a missing
altitude is the same as none but another missing one. That is an equivalence
for every scalar, which is what makes points fit to be hashed: `distinct` keeps
the first of each class.
-/

namespace Graticule

/-- A position: longitude and latitude in degrees, and perhaps an altitude. -/
structure Point (α : Type) where
  /-- Degrees east. -/
  longitude : α
  /-- Degrees north. -/
  latitude : α
  /-- Height, where it is known. -/
  altitude : Option α := none
deriving Repr

/-- A region between two parallels and two meridians, by its corners. -/
structure Box (α : Type) where
  /-- The corner with the least longitude and latitude. -/
  southwest : Point α
  /-- The corner with the greatest longitude and latitude. -/
  northeast : Point α
deriving Repr

variable {α : Type}

namespace Point

/-- The components in order, the altitude last where there is one. -/
def components (p : Point α) : List α :=
  match p.altitude with
  | some altitude => [p.longitude, p.latitude, altitude]
  | none => [p.longitude, p.latitude]

variable [Scalar α]

instance : BEq (Point α) where
  beq p q :=
    Scalar.same p.longitude q.longitude
      && Scalar.same p.latitude q.latitude
      && (match p.altitude, q.altitude with
          | some a, some b => Scalar.same a b
          | none, none => true
          | _, _ => false)

instance : Hashable (Point α) where
  hash p :=
    mixHash (mixHash (Scalar.digest p.longitude) (Scalar.digest p.latitude))
      (match p.altitude with
       | some a => mixHash 1 (Scalar.digest a)
       | none => 0)

/-- Every component is finite. -/
def isFinite (p : Point α) : Bool :=
  Scalar.isFinite p.longitude && Scalar.isFinite p.latitude
    && p.altitude.all Scalar.isFinite

end Point

namespace Box

/-- The least longitude. -/
def west (b : Box α) : α := b.southwest.longitude

/-- The least latitude. -/
def south (b : Box α) : α := b.southwest.latitude

/-- The greatest longitude. -/
def east (b : Box α) : α := b.northeast.longitude

/-- The greatest latitude. -/
def north (b : Box α) : α := b.northeast.latitude

/-- The box with these four sides, its corners without altitudes. -/
def ofSides (west south east north : α) : Box α :=
  ⟨⟨west, south, none⟩, ⟨east, north, none⟩⟩

/-- West, south, east and north. -/
def sides (b : Box α) : List α := [b.west, b.south, b.east, b.north]

instance [Scalar α] : BEq (Box α) where
  beq a b := a.southwest == b.southwest && a.northeast == b.northeast

end Box

end Graticule
