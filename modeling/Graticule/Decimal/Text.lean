import Graticule.Decimal.Numeral

/-!
# Numbers as text

A text is read as a double when all of it is a decimal numeral, or the name of
infinity or of what is not a number in either case. A numeral has at least one
digit on one side of the point or the other, and a sign may stand in front.
-/

namespace Graticule

/-- The number that digits and nothing else spell. -/
def wholeNumber? (text : List Char) : Option Nat :=
  if !text.isEmpty && text.all Char.isDigit then
    some (digitsValue (text.map digitValue))
  else none

namespace Numeral

/-- The power of ten after its mark. -/
def power? (text : List Char) : Option Int :=
  match text with
  | '-' :: rest => (wholeNumber? rest).map fun n => -(n : Int)
  | '+' :: rest => (wholeNumber? rest).map fun n => (n : Int)
  | text => (wholeNumber? text).map fun n => (n : Int)

/-- The mark of a power of ten. -/
def isMark (c : Char) : Bool := c == 'e' || c == 'E'

/-- Digits with at most one point among them and at least one digit. -/
def mantissa? (text : List Char) : Option (List Nat × Option (List Nat)) :=
  let front := text.takeWhile Char.isDigit
  let values (ds : List Char) : List Nat := ds.map digitValue
  match text.dropWhile Char.isDigit with
  | [] => if front.isEmpty then none else some (values front, none)
  | '.' :: back =>
    if (front.isEmpty && back.isEmpty) || !back.all Char.isDigit then none
    else some (values front, some (values back))
  | _ => none

/-- The numeral of a text without a sign. -/
def ofChars? (negative : Bool) (text : List Char) : Option Numeral := do
  let (whole, fraction) ← mantissa? (text.takeWhile (!isMark ·))
  let exponent ← match text.dropWhile (!isMark ·) with
    | [] => some none
    | _ :: rest => some <$> power? rest
  some { negative, whole, fraction, exponent }

end Numeral

/-- The double of a text without its sign: by a name, in either case, or by a
numeral. -/
def unsignedDouble? (negative : Bool) (text : List Char) : Option Float :=
  let name := String.ofList (text.map Char.toLower)
  let sign (x : Float) : Float := if negative then -x else x
  if name = "inf" || name = "infinity" then some (sign Binary64.infinity)
  else if name = "nan" then some Binary64.notANumber
  else (Numeral.ofChars? negative text).map Numeral.nearest

/-- The double of a text. -/
def double? : List Char → Option Float
  | '-' :: rest => unsignedDouble? true rest
  | '+' :: rest => unsignedDouble? false rest
  | text => unsignedDouble? false text

end Graticule
