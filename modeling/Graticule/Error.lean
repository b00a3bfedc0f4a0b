import Graticule.Decimal.Layout
import Graticule.Document.Reader

/-!
# Errors

Everything an operation can refuse, by its cause, and the one text each cause
is reported with. Numbers in a text are shown in full.
-/

namespace Graticule

/-- A setting that is not accepted. -/
inductive SettingFault where
  /-- A file is missing, or is not text. -/
  | unreadableFile
  /-- A file is not TOML, or holds a setting of the wrong type. -/
  | malformedFile
  /-- A number of steps that is not a positive whole number. -/
  | circleSteps (given : String)
  /-- A tolerance that is not a finite number from zero up. -/
  | tolerance (given : String)
  /-- A word that is neither yes nor no. -/
  | flag (given : String)
deriving DecidableEq, Repr

/-- The name of the setting at fault. -/
def SettingFault.key : SettingFault → String
  | unreadableFile | malformedFile => "file"
  | circleSteps _ => "circle_steps"
  | tolerance _ => "simplify_tolerance"
  | flag _ => "simplify_high_quality"

/-- What is wrong with the setting. -/
def SettingFault.reason : SettingFault → String
  | unreadableFile => "Failed to read config file"
  | malformedFile => "Failed to parse TOML"
  | circleSteps given => "Invalid step count: " ++ given ++ ". Use a positive integer"
  | tolerance given => "Invalid tolerance: " ++ given ++ ". Use a non-negative number"
  | flag given => "Invalid flag: " ++ given ++ ". Use true or false"

/-- Why an operation has no answer. -/
inductive Error (α : Type) where
  /-- No unit has this name. -/
  | unknownUnit (name : String)
  /-- A distance below zero. -/
  | negativeDistance (distance : α)
  /-- A check was asked for without a type or a caller's name. -/
  | typeAndNameRequired
  /-- A check was asked for without a caller's name. -/
  | nameRequired (check : String)
  /-- A feature with a geometry is needed. -/
  | featureRequired (name : String)
  /-- A feature collection is needed. -/
  | featureCollectionRequired (name : String)
  /-- Something else than what is needed was given. -/
  | wrongInput (name expected given : String)
  /-- A feature with a point is needed. -/
  | pointRequired
  /-- A line has too few points. -/
  | tooFewCoordinates (operation : String) (required found : Nat)
  /-- A slice between two points starts where it stops. -/
  | sliceEndpointsEqual
  /-- A slice between two distances starts where it stops. -/
  | sliceDistancesEqual
  /-- A slice between two distances stops before it starts. -/
  | sliceDistancesReversed (start stop : α)
  /-- A slice starts where the line is already over. -/
  | startBeyondLine (start length : α)
  /-- There are not as many distances as segments. -/
  | distanceCount (expected found : Nat)
  /-- A circle of too few steps. -/
  | tooFewSteps (steps : Nat)
  /-- A setting is not accepted. -/
  | setting (fault : SettingFault)
  /-- A text is not a document. -/
  | unreadable (fault : Document.ReadFault)
  /-- A document holds no value. -/
  | undecodable (fault : Document.Fault)
  /-- A walk along a line asked for a vertex the line does not have. -/
  | noSuchVertex

/-- The text an error is reported with. -/
def Error.message : Error Float → String
  | unknownUnit name => "Invalid unit. '" ++ name ++ "' is not a supported unit"
  | negativeDistance d =>
    "Distance must be a non-negative number, given " ++ Layout.plain.text d
  | typeAndNameRequired => "Type and name required"
  | nameRequired check => check ++ "() requires a name"
  | featureRequired name =>
    "Invalid input to " ++ name ++ ", Feature with geometry required"
  | featureCollectionRequired name =>
    "Invalid input to " ++ name ++ ", FeatureCollection required"
  | wrongInput name expected given =>
    "Invalid input to " ++ name ++ ": must be a " ++ expected ++ ", given " ++ given
  | pointRequired => "A feature with a Point geometry is required."
  | tooFewCoordinates operation required found =>
    operation ++ " requires at least " ++ toString required
      ++ " coordinates, found " ++ toString found
  | sliceEndpointsEqual =>
    "Start and stop points in lineSlice cannot equal each other."
  | sliceDistancesEqual =>
    "Start and stop distance in lineSliceAlong cannot equal each other."
  | sliceDistancesReversed start stop =>
    "Stop distance " ++ Layout.plain.text stop
      ++ " in lineSliceAlong is before start distance " ++ Layout.plain.text start
  | startBeyondLine start length =>
    "Start position is beyond line: start " ++ Layout.plain.text start
      ++ ", line length " ++ Layout.plain.text length
  | distanceCount expected found =>
    "Expected " ++ toString expected ++ " segment distances, found "
      ++ toString found
  | tooFewSteps steps =>
    "Circle requires at least one step, given " ++ toString steps
  | setting fault =>
    "Invalid configuration value for " ++ fault.key ++ ": " ++ fault.reason
  | unreadable fault =>
    "Serialization error: Failed to parse GeoJSON: " ++ fault.message
  | undecodable fault => "Serialization error: " ++ fault.message
  | noSuchVertex => "The line has no vertex there"

end Graticule
