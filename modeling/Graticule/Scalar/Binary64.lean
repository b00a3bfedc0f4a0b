import Graticule.Scalar

/-!
# Doubles as scalars

A double is read through its 64-bit pattern: one sign bit, eleven bits of
exponent, fifty-two of fraction. The pattern gives the two things the library
needs of it. `canonical` picks one pattern for each value, folding the two
zeros together and all patterns that are not a number, so identity of doubles
is equality of canonical patterns. `magnitude` reads a finite pattern as a
whole number times a power of two, which is where number texts and exact
remainders start.
-/

namespace Graticule

namespace Binary64

/-- The pattern with its sign bit cleared. -/
def unsigned (bits : UInt64) : UInt64 := bits &&& 0x7fffffffffffffff

/-- The sign bit is set. -/
def isNegative (bits : UInt64) : Bool := bits >>> 63 == 1

/-- The exponent is full and the fraction is not empty. -/
def isNaN (bits : UInt64) : Bool := 0x7ff0000000000000 < unsigned bits

/-- The exponent is full and the fraction is empty. -/
def isInfinite (bits : UInt64) : Bool := unsigned bits == 0x7ff0000000000000

/-- The one pattern that stands for the value: both zeros give positive zero,
and everything that is not a number gives one pattern. -/
def canonical (bits : UInt64) : UInt64 :=
  if unsigned bits == 0 then 0
  else if isNaN bits then 0x7ff8000000000000
  else bits

/-- The value of a finite pattern without its sign, as `mantissa · 2 ^ exponent`. -/
structure Magnitude where
  /-- A whole number below `2 ^ 53`. -/
  mantissa : Nat
  /-- The power of two it is scaled by, at least `-1074`. -/
  exponent : Int

/-- A subnormal pattern has no implicit leading bit and the exponent of the
smallest normal one. -/
def magnitude (bits : UInt64) : Magnitude :=
  let e := (unsigned bits >>> 52).toNat
  let f := (bits &&& 0x000fffffffffffff).toNat
  if e = 0 then ⟨f, -1074⟩ else ⟨f + Nat.pow 2 52, (e : Int) - 1075⟩

/-- The double above all finite ones. -/
def infinity : Float := Float.ofBits 0x7ff0000000000000

/-- The double that is not a number. -/
def notANumber : Float := Float.ofBits 0x7ff8000000000000

/-- The double `2 ^ q`, for `q` from `-1074` to `1023`. -/
def powerOfTwo (q : Int) : Float :=
  if q < -1022 then Float.ofBits ((1 : UInt64) <<< (q + 1074).toNat.toUInt64)
  else Float.ofBits ((q + 1023).toNat.toUInt64 <<< 52)

/-- Remainder of the division of two doubles, with the sign of the dividend.
It is exact: both magnitudes are whole multiples of the smaller of their two
powers of two, and so is the remainder. -/
def rem (x y : Float) : Float :=
  let bx := x.toBits
  let b := y.toBits
  if isNaN bx || isNaN b || isInfinite bx || unsigned b == 0 then
    notANumber
  else if isInfinite b then x
  else
    let m := magnitude bx
    let n := magnitude b
    let q := min m.exponent n.exponent
    let r := (m.mantissa * Nat.pow 2 (m.exponent - q).toNat)
      % (n.mantissa * Nat.pow 2 (n.exponent - q).toNat)
    let size := Float.ofNat r * powerOfTwo q
    if isNegative bx then -size else size

/-- Length of a vector. The components are scaled by the larger one where
their squares would overflow or vanish. -/
def hypot (x y : Float) : Float :=
  let a := x.abs
  let b := y.abs
  if a.isInf || b.isInf then infinity
  else
    let most := if a < b then b else a
    let least := if a < b then a else b
    if 1.0e-140 < most && most < 1.0e140 then Float.sqrt (x * x + y * y)
    else if most == 0.0 && least == 0.0 then 0.0
    else
      let ratio := least / most
      most * Float.sqrt (1.0 + ratio * ratio)

end Binary64

instance : Scalar Float where
  ofNat := Float.ofNat
  decLt := inferInstance
  decLe := inferInstance
  same a b := Binary64.canonical a.toBits == Binary64.canonical b.toBits
  digest a := Binary64.canonical a.toBits

instance : Trig Float where
  sin := Float.sin
  cos := Float.cos
  asin := Float.asin
  atan2 := Float.atan2
  sqrt := Float.sqrt
  hypot := Binary64.hypot
  radians x := x * (3.141592653589793 / 180.0)
  degrees x := x * 57.2957795130823208767981548141051703
  pi := 3.141592653589793
  rem := Binary64.rem
  infinity := Binary64.infinity

end Graticule
