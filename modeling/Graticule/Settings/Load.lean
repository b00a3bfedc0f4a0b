import Graticule.Settings
import Graticule.Settings.Text
import Graticule.Toml.Reader

/-!
# Loading settings

A settings file is a TOML document. Every setting in it may be left out and
everything else in it is passed over, but a setting of the wrong type spoils
the file, and so does a value that is not accepted: nothing is taken from it
then. What reads the document is an argument, `Toml.read?` unless another reader
is given: nothing about settings depends on what a reader makes of a text.

From the environment each setting is taken on its own. One that cannot be read
is left out with a warning.

The program itself supplies values of the right types, and these are taken as
they are.
-/

namespace Graticule

/-! ## Files -/

/-- What reads settings files: the members of a document, or none if the text
is not one. -/
abbrev SettingsReader := String → Option Toml.Members

namespace Layer

/-- A unit in a file: its name, or a table with that name for its only member
and nothing in it. -/
def unitOf : Toml → Option LengthUnit
  | .string name => LengthUnit.ofName? name
  | .table _ [(name, .table _ [])] => LengthUnit.ofName? name
  | .table _ [(name, .array [])] => LengthUnit.ofName? name
  | _ => none

/-- A number of steps in a file, before it is checked. -/
def stepsOf : Toml → Option Int
  | .integer n => some n
  | _ => none

/-- A tolerance in a file, before it is checked. -/
def toleranceOf : Toml → Option Float
  | .float x => some x
  | .integer n => some (JsonNumber.whole n).toFloat
  | _ => none

/-- A flag in a file. -/
def flagOf : Toml → Option Bool
  | .boolean b => some b
  | _ => none

/-- The member of this name, if there is one, by a function that fails on one
of the wrong type. -/
def typed {β : Type} (members : Toml.Members) (name : String)
    (read : Toml → Option β) : Except SettingFault (Option β) :=
  match members.lookup name with
  | none => .ok none
  | some v =>
    match read v with
    | some b => .ok (some b)
    | none => .error .malformedFile

/-- A number of steps has to be at least one. -/
def checkSteps (n : Int) : Except SettingFault Nat :=
  if 1 ≤ n then .ok n.toNat else .error (.circleSteps (toString n))

/-- What the members of a settings file supply. All types come before all
checks. -/
def ofMembers (members : Toml.Members) : Except SettingFault Layer := do
  let unit ← typed members "default_unit" unitOf
  let steps ← typed members "circle_steps" stepsOf
  let tolerance ← typed members "simplify_tolerance" toleranceOf
  let highQuality ← typed members "simplify_high_quality" flagOf
  return {
    unit
    circleSteps := ← steps.mapM checkSteps
    tolerance := ← tolerance.mapM Settings.checkTolerance
    highQuality }

/-- What a settings file supplies, by its content; a missing file has none. -/
def ofFile (read : SettingsReader) (content : Option ByteArray) :
    Except SettingFault Layer :=
  match content.bind String.fromUTF8? with
  | none => .error .unreadableFile
  | some text =>
    match read text with
    | none => .error .malformedFile
    | some members => ofMembers members

end Layer

/-! ## The environment -/

/-- The variables that settings are taken from. -/
inductive Variable where
  | unit
  | circleSteps
  | tolerance
  | highQuality
deriving DecidableEq, Repr

namespace Variable

/-- The name of the variable. -/
def name : Variable → String
  | unit => "TURF_DEFAULT_UNIT"
  | circleSteps => "TURF_CIRCLE_STEPS"
  | tolerance => "TURF_SIMPLIFY_TOLERANCE"
  | highQuality => "TURF_SIMPLIFY_HIGH_QUALITY"

/-- What its value should be. -/
def expected : Variable → String
  | unit => "a unit such as kilometers or miles"
  | circleSteps => "a positive integer"
  | tolerance => "a non-negative number"
  | highQuality => "true or false"

end Variable

/-- The values of the variables that are set. -/
abbrev Environment := Variable → Option String

/-- A variable whose value could not be read. -/
structure Warning where
  /-- The variable. -/
  subject : Variable
  /-- Its value. -/
  value : String
deriving DecidableEq, Repr

/-- The text of a warning. -/
def Warning.message (w : Warning) : String :=
  "Invalid " ++ w.subject.name ++ " value '" ++ w.value ++ "': expected "
    ++ w.subject.expected

namespace Environment

/-- What the environment supplies. -/
def layer (e : Environment) : Layer where
  unit := (e .unit).bind LengthUnit.ofName?
  circleSteps := (e .circleSteps).bind fun v => (Settings.readCircleSteps v).toOption
  tolerance := (e .tolerance).bind fun v => (Settings.readTolerance v).toOption
  highQuality := (e .highQuality).bind fun v => (Settings.readFlag v).toOption

/-- The variables that could not be read, in order. -/
def warnings (e : Environment) : List Warning :=
  let layer := e.layer
  let unread (v : Variable) (taken : Bool) : List Warning :=
    if taken then [] else ((e v).map fun value => ⟨v, value⟩).toList
  unread .unit layer.unit.isSome
    ++ unread .circleSteps layer.circleSteps.isSome
    ++ unread .tolerance layer.tolerance.isSome
    ++ unread .highQuality layer.highQuality.isSome

end Environment

/-! ## All sources -/

/-- Something settings are loaded from. -/
inductive Load where
  /-- A file with this content; a missing one has none. -/
  | file (content : Option ByteArray)
  /-- The environment. -/
  | environment (values : Environment)
  /-- The program itself. -/
  | overrides (layer : Layer)

/-- The settings after one more load. A file that is not accepted changes
nothing. -/
def Settings.load (s : Settings) (l : Load) (read : SettingsReader := Toml.read?) :
    Except SettingFault Settings :=
  match l with
  | .file content => s.supply .file <$> Layer.ofFile read content
  | .environment values => .ok (s.supply .environment values.layer)
  | .overrides layer => .ok (s.supply .override layer)

end Graticule
