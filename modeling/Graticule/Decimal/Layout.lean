import Graticule.Decimal

/-!
# Texts of doubles

The digits of a double are chosen by `Decimal.shortest`; a layout says how they
are set. Two layouts are in use. Messages, locations and the inspection of
settings show a double in full, however long, and a whole one without a point.
Documents write small and large values with an exponent, a whole one with a
point and a zero, and a value that is not finite as `null`.
-/

namespace Graticule

/-- How a double is set out. -/
structure Layout where
  /-- The powers of ten of the leading digit for which no exponent is written. -/
  positional : Int → Bool
  /-- What follows the digits of a whole value. -/
  wholeEnding : String
  /-- Which of two decimals is written for a value midway between them. -/
  tie : Tie
  /-- The text of the double above all finite ones. -/
  infinite : String
  /-- The text of the double below all finite ones. -/
  negativeInfinite : String
  /-- The text of what is not a number. -/
  notANumber : String

namespace Layout

/-- In full: never an exponent, no point in a whole value. -/
def plain : Layout where
  positional _ := true
  wholeEnding := ""
  tie := .up
  infinite := "inf"
  negativeInfinite := "-inf"
  notANumber := "NaN"

/-- As in documents: positional from `0.00001` up to below `10 ^ 16`. -/
def document : Layout where
  positional k := -5 ≤ k && k < 16
  wholeEnding := ".0"
  tie := .toEven
  infinite := "null"
  negativeInfinite := "null"
  notANumber := "null"

/-- A run of zeros. -/
def zeros (n : Nat) : String := String.ofList (List.replicate n '0')

/-- The digits with the point in its place: zeros fill up the gap between the
digits and the point on either side. -/
def setPositional (l : Layout) (digits : List Char) (exponent : Int) : String :=
  let point := (digits.length : Int) + exponent
  if 0 ≤ exponent then String.ofList digits ++ zeros exponent.toNat ++ l.wholeEnding
  else if 0 < point then
    String.ofList (digits.take point.toNat) ++ "."
      ++ String.ofList (digits.drop point.toNat)
  else "0." ++ zeros (-point).toNat ++ String.ofList digits

/-- One digit before the point, and the power of ten of that digit with its
sign. -/
def setExponent (digits : List Char) (leading : Int) : String :=
  let mantissa := match digits with
    | d :: [] => String.ofList [d]
    | d :: rest => String.ofList (d :: '.' :: rest)
    | [] => ""
  let sign := if leading < 0 then "-" else "+"
  mantissa ++ "e" ++ sign ++ toString leading.natAbs

/-- The text of a decimal that is not zero. -/
def setDecimal (l : Layout) (d : Decimal) : String :=
  let digits := Nat.toDigits 10 d.digits
  let leading := (digits.length : Int) - 1 + d.exponent
  if l.positional leading then l.setPositional digits d.exponent
  else setExponent digits leading

/-- The text of a double. -/
def text (l : Layout) (x : Float) : String :=
  let bits := x.toBits
  if Binary64.isNaN bits then l.notANumber
  else if Binary64.isInfinite bits then
    if Binary64.isNegative bits then l.negativeInfinite else l.infinite
  else
    let size := if Binary64.unsigned bits == 0 then "0" ++ l.wholeEnding
      else l.setDecimal (Decimal.shortest (Binary64.magnitude bits) l.tie)
    if Binary64.isNegative bits then "-" ++ size else size

end Layout

end Graticule
