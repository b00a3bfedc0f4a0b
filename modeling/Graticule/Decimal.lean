import Graticule.Scalar.Binary64

/-!
# Decimals close to a double

A finite double is `m · 2 ^ q` exactly. It is written by a decimal that reads
back as the same double: among those, one with the fewest digits, and of these
the nearest to the value. The decimals that read back are those between the
midpoints to the two neighbouring doubles, the midpoints themselves included
when `m` is even.

The search goes from coarse grids of decimals to fine ones. On the grid of the
multiples of `10 ^ k` only the two neighbours of the value can be nearest, so
each grid needs two comparisons, made on whole numbers.
-/

namespace Graticule

/-- The number `digits · 10 ^ exponent`. -/
structure Decimal where
  /-- The digits, read as a whole number. -/
  digits : Nat
  /-- The power of ten they are scaled by. -/
  exponent : Int
deriving DecidableEq, Repr

/-- What becomes of a value midway between two decimals. -/
inductive Tie where
  /-- The decimal with the even last digit. -/
  | toEven
  /-- The greater decimal. -/
  | up
deriving DecidableEq, Repr

/-- A positive quotient of whole numbers. -/
structure Quotient where
  /-- The dividend. -/
  num : Nat
  /-- The divisor, not zero. -/
  den : Nat

namespace Quotient

/-- `m · 2 ^ q` as a quotient. -/
def ofBinary (m : Nat) (q : Int) : Quotient :=
  if q < 0 then ⟨m, Nat.pow 2 (-q).toNat⟩ else ⟨m * Nat.pow 2 q.toNat, 1⟩

/-- The quotient in steps of `10 ^ k`. -/
def inSteps (v : Quotient) (k : Int) : Quotient :=
  if k < 0 then ⟨v.num * Nat.pow 10 (-k).toNat, v.den⟩
  else ⟨v.num, v.den * Nat.pow 10 k.toNat⟩

/-- The value is at least `10 ^ k`. -/
def reaches (v : Quotient) (k : Int) : Bool :=
  let w := v.inSteps k
  w.den ≤ w.num

/-- The greatest `k` with `10 ^ k` at most the value `m · 2 ^ q`, for positive
`m`: guessed from the position of the leading bit, which is off by one at the
most. -/
def decade (m : Nat) (q : Int) : Int :=
  let v := ofBinary m q
  let guess := ((m.log2 : Int) + q) * 30103 / 100000
  if v.reaches (guess + 1) then guess + 1
  else if v.reaches guess then guess
  else guess - 1

/-- The whole number nearest to the quotient. -/
def nearest (v : Quotient) (tie : Tie) : Nat :=
  let c := v.num / v.den
  let twice := 2 * (v.num % v.den)
  if twice < v.den then c
  else if v.den < twice then c + 1
  else match tie with
    | .toEven => if c % 2 = 0 then c else c + 1
    | .up => c + 1

end Quotient

namespace Decimal

/-- The positive double `m · 2 ^ q` with the bounds of the decimals that read
back as it, all in units of `2 ^ (q - 2)`. Below a power of two the next double
is half as far away. -/
structure Interval where
  /-- Four times the mantissa. -/
  value : Nat
  /-- Twice the midpoint to the double below. -/
  low : Nat
  /-- Twice the midpoint to the double above. -/
  high : Nat
  /-- The bounds read back as the value too. -/
  closed : Bool
  /-- The power of two of one unit. -/
  unit : Int

/-- The interval around a positive double. -/
def Interval.around (v : Binary64.Magnitude) : Interval where
  value := 4 * v.mantissa
  low :=
    if v.mantissa = Nat.pow 2 52 ∧ -1074 < v.exponent then 4 * v.mantissa - 1
    else 4 * v.mantissa - 2
  high := 4 * v.mantissa + 2
  closed := v.mantissa % 2 = 0
  unit := v.exponent - 2

/-- The multiple of `10 ^ k` that is written for the value, if one of its two
neighbours on this grid reads back. -/
def Interval.onGrid (i : Interval) (tie : Tie) (k : Int) : Option Nat :=
  let scaled (n : Nat) := (Quotient.ofBinary n i.unit).inSteps k
  let v := scaled i.value
  let below := v.num / v.den
  let reads (c : Nat) : Bool :=
    let low := (scaled i.low).num
    let high := (scaled i.high).num
    let here := c * v.den
    (low < here && here < high) || (i.closed && (here == low || here == high))
  match reads below, reads (below + 1) with
  | true, true => some (v.nearest tie)
  | true, false => some below
  | false, true => some (below + 1)
  | false, false => none

/-- The first grid with a decimal that reads back, from `10 ^ k` downwards.
Seventeen digits always do, so the last grid is not searched in vain. -/
def Interval.search (i : Interval) (tie : Tie) : (grids : Nat) → (k : Int) → Decimal
  | 0, k => ⟨((Quotient.ofBinary i.value i.unit).inSteps k).nearest tie, k⟩
  | n + 1, k =>
    match i.onGrid tie k with
    | some c => ⟨c, k⟩
    | none => i.search tie n (k - 1)

/-- The decimal without zeros at its end. -/
def trim (d : Decimal) : Decimal := go d.digits d.digits d.exponent
where
  /-- Drops the zeros, at most as many as the fuel. -/
  go : Nat → Nat → Int → Decimal
    | 0, n, e => ⟨n, e⟩
    | fuel + 1, n, e =>
      if n % 10 = 0 ∧ n ≠ 0 then go fuel (n / 10) (e + 1) else ⟨n, e⟩

/-- A decimal with the fewest digits that reads back as the positive double,
nearest to it among those. -/
def shortest (v : Binary64.Magnitude) (tie : Tie) : Decimal :=
  ((Interval.around v).search tie 16
    (Quotient.decade v.mantissa v.exponent)).trim

/-- The decimal of this many significant digits nearest to the positive
double, halfway cases to the even digit. -/
def rounded (v : Binary64.Magnitude) (places : Nat) : Decimal :=
  let k := Quotient.decade v.mantissa v.exponent + 1 - places
  ⟨((Quotient.ofBinary v.mantissa v.exponent).inSteps k).nearest .toEven, k⟩

end Decimal

end Graticule
