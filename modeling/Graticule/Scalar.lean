/-!
# Scalars

Every rule of this library that touches a coordinate is written once, for any
type of scalars. Doubles are what runs; exact rationals, or a type of which
nothing is known but its order, are what the theory reads the same text over.

A scalar compares in two ways, and the difference matters wherever a value may
fail to be a number. `==` is numeric: it tells nothing apart that is equal in
value, and a value that is not a number differs from itself. `same` is
identity: it is an equivalence on all values, and points are equal, hashed and
deduplicated by it.

What is derived here needs no more than these operations. A value is not a
number when it differs from itself, and finite when it cancels itself; the
lesser and the greater of two values skip one that is not a number.
-/

namespace Graticule

/-- A type whose values can be coordinates and distances. -/
class Scalar (α : Type) extends
    Add α, Sub α, Mul α, Div α, Neg α, LT α, LE α, BEq α, OfScientific α where
  /-- The scalar of a whole number. -/
  ofNat : Nat → α
  /-- The strict order is decided. -/
  decLt : (a b : α) → Decidable (a < b)
  /-- The weak order is decided. -/
  decLe : (a b : α) → Decidable (a ≤ b)
  /-- Identity of values: an equivalence, unlike `==`. -/
  same : α → α → Bool
  /-- A digest that values which are the `same` share. -/
  digest : α → UInt64

/-- The functions of the sphere: angles, roots, and a bound above every
distance. -/
class Trig (α : Type) extends Scalar α where
  /-- Sine of an angle in radians. -/
  sin : α → α
  /-- Cosine of an angle in radians. -/
  cos : α → α
  /-- Arc sine, in radians. -/
  asin : α → α
  /-- Angle in radians of the vector with this ordinate and abscissa. -/
  atan2 : α → α → α
  /-- Square root. -/
  sqrt : α → α
  /-- Length of the vector with these two components. -/
  hypot : α → α → α
  /-- Radians of an angle in degrees. -/
  radians : α → α
  /-- Degrees of an angle in radians. -/
  degrees : α → α
  /-- Half a turn, in radians. -/
  pi : α
  /-- Remainder of a division, with the sign of the dividend. -/
  rem : α → α → α
  /-- A distance that nothing measured exceeds. -/
  infinity : α

namespace Scalar

variable {α : Type} [Scalar α]

instance (priority := low) instOfNat (n : Nat) : OfNat α n := ⟨ofNat n⟩

instance (priority := low) instDecidableLt (a b : α) : Decidable (a < b) :=
  decLt a b

instance (priority := low) instDecidableLe (a b : α) : Decidable (a ≤ b) :=
  decLe a b

/-- The value differs from itself, so it is not a number. -/
def isNaN (x : α) : Bool := !(x == x)

/-- The value cancels itself, so it is neither infinite nor not a number. -/
def isFinite (x : α) : Bool := x - x == (0 : α)

/-- The smaller of two values, skipping one that is not a number. -/
def lesser (a b : α) : α :=
  if isNaN a then b else if b < a then b else a

/-- The larger of two values, skipping one that is not a number. -/
def greater (a b : α) : α :=
  if isNaN a then b else if a < b then b else a

/-- The value without its sign. -/
def abs (x : α) : α := if x < 0 then -x else x

/-- The value times itself. -/
def squared (x : α) : α := x * x

/-- The values added from left to right, starting at the zero that changes no
summand, not even its sign. -/
def total (xs : List α) : α := xs.foldl (· + ·) (-0)

end Scalar

end Graticule
