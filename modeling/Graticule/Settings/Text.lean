import Graticule.Decimal.Text
import Graticule.Error
import Graticule.Text.Blank

/-!
# Settings as text

How the text of a setting is read: a number of steps, a tolerance, a flag.
White space around a number is passed over, around a flag it is not.

A tolerance has to be finite and not below zero, and two kinds of faults are
told apart: a text that is no number is shown as it was given, a number out of
range by its value.
-/

namespace Graticule.Settings

/-! ## Steps -/

/-- The greatest number of steps that can be given. -/
def mostSteps : Nat := Nat.pow 2 64 - 1

/-- A number of steps: at least one, and perhaps with a plus sign. -/
def readCircleSteps (text : String) : Except SettingFault Nat :=
  let number := match Text.trim text.toList with
    | '+' :: rest => wholeNumber? rest
    | text => wholeNumber? text
  match number with
  | some n =>
    if 1 ≤ n ∧ n ≤ mostSteps then .ok n else .error (.circleSteps text)
  | none => .error (.circleSteps text)

/-! ## Tolerances -/

/-- A tolerance has to be finite and not below zero. -/
def checkTolerance (x : Float) : Except SettingFault Float :=
  if x.isFinite && 0.0 ≤ x then .ok x
  else .error (.tolerance (Layout.plain.text x))

/-- A tolerance. -/
def readTolerance (text : String) : Except SettingFault Float :=
  match double? (Text.trim text.toList) with
  | some x => checkTolerance x
  | none => .error (.tolerance text)

/-! ## Flags -/

/-- A word for yes or no, in either case. -/
def readFlag (text : String) : Except SettingFault Bool :=
  let word := String.ofList (text.toList.map Char.toLower)
  if word ∈ ["true", "1", "yes"] then .ok true
  else if word ∈ ["false", "0", "no"] then .ok false
  else .error (.flag text)

end Graticule.Settings
