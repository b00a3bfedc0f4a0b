import Graticule.Scalar.Binary64

/-!
# Numerals

A numeral is a number as it is spelled: a sign, digits before and after the
point, a power of ten. Two rules give it a double. `nearest` is the double
closest to the number. `scaled` takes one rounding step more: as many leading
digits as fit a 64-bit word make a double, which is then multiplied or divided
by a power of ten. The second rule reads documents, and the two differ in the
last bit of some long numerals.
-/

namespace Graticule

/-- A number as it is spelled. -/
structure Numeral where
  /-- A minus sign stands in front. -/
  negative : Bool := false
  /-- The digits before the point. -/
  whole : List Nat
  /-- The digits after the point, if there is one. -/
  fraction : Option (List Nat) := none
  /-- The power of ten, if one is given. -/
  exponent : Option Int := none
deriving Repr

/-- The value of a character as a decimal digit. -/
def digitValue (c : Char) : Nat := c.toNat - '0'.toNat

/-- The whole number these digits spell. -/
def digitsValue (digits : List Nat) : Nat :=
  digits.foldl (fun n d => 10 * n + d) 0

/-- The double nearest to `n · 10 ^ e`. A number beyond all doubles gives
infinity and one below them zero, whatever the power. -/
def nearestFloat (n : Nat) (e : Int) : Float :=
  if n = 0 then 0.0
  else
    let places := ((Nat.toDigits 10 n).length : Int) + e
    if 310 < places then Binary64.infinity
    else if places < -330 then 0.0
    else if e < 0 then Float.ofScientific n true (-e).toNat
    else Float.ofScientific n false e.toNat

namespace Numeral

/-- The numeral has neither a point nor a power. -/
def isWhole (n : Numeral) : Bool := n.fraction.isNone && n.exponent.isNone

/-- The whole number spelled, where there is neither a point nor a power. -/
def wholeValue (n : Numeral) : Int :=
  let size := digitsValue n.whole
  if n.negative then -size else size

/-- Puts the sign of the numeral on a double. -/
def signed (n : Numeral) (size : Float) : Float :=
  if n.negative then -size else size

/-- The double closest to the number. -/
def nearest (n : Numeral) : Float :=
  let fraction := n.fraction.getD []
  n.signed (nearestFloat (digitsValue (n.whole ++ fraction))
    (n.exponent.getD 0 - fraction.length))

/-- The leading digits of a numeral that fit a 64-bit word, with the power of
ten of the last of them. -/
structure Significand where
  /-- The digits taken, as a number. -/
  digits : Nat := 0
  /-- The power of ten of the last digit taken. -/
  power : Int := 0
  /-- A digit was refused, and no later one is taken. -/
  full : Bool := false

/-- A digit more would still fit a 64-bit word. -/
def Significand.fits (s : Significand) (d : Nat) : Bool :=
  !s.full && 10 * s.digits + d < Nat.pow 2 64

/-- Takes a digit before the point; one that does not fit counts as a power of
ten. -/
def Significand.takeWhole (s : Significand) (d : Nat) : Significand :=
  if s.fits d then { s with digits := 10 * s.digits + d }
  else { s with power := s.power + 1, full := true }

/-- Takes a digit after the point; one that does not fit is dropped. -/
def Significand.takeFraction (s : Significand) (d : Nat) : Significand :=
  if s.fits d then { s with digits := 10 * s.digits + d, power := s.power - 1 }
  else { s with full := true }

/-- The significand of a numeral. The point gives the digits after it a chance
of their own to fit. -/
def significand (n : Numeral) : Significand :=
  let whole := n.whole.foldl Significand.takeWhole {}
  (n.fraction.getD []).foldl Significand.takeFraction { whole with full := false }

/-- A double times a power of ten, in one operation, or in steps below the
least power that is a double. None where the product overflows. -/
def scale (x : Float) (e : Int) : Option Float :=
  if 0 ≤ e then
    if x == 0.0 then some x
    else if 308 < e then none
    else
      let y := x * Float.ofScientific 1 false e.toNat
      if y.isInf then none else some y
  else if -308 ≤ e then some (x / Float.ofScientific 1 false (-e).toNat)
  else if x == 0.0 then some x
  else scale (x / 1.0e308) (e + 308)
termination_by (-e).toNat
decreasing_by omega

/-- The double of the leading digits, scaled by the power of ten. None where it
overflows. -/
def scaled (n : Numeral) : Option Float :=
  let s := n.significand
  (scale (Float.ofNat s.digits) (s.power + n.exponent.getD 0)).map n.signed

end Numeral

end Graticule
