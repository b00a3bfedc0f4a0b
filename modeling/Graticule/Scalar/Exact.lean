import Graticule.Scalar

/-!
# Exact scalars

The rationals as scalars: arithmetic loses nothing, every value is a number,
and identity is equality. Statements about exact arithmetic are read here.
-/

namespace Graticule

instance : Scalar Rat where
  ofNat n := (n : Rat)
  decLt := inferInstance
  decLe := inferInstance
  same a b := a == b
  digest := hash

end Graticule
