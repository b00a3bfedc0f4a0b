import Graticule.Decimal.Layout
import Graticule.Defaults

/-!
# Settings

The defaults can be set from several sources: a file, the environment, the
program itself. Each of the four settings remembers where its value came from,
and a value from elsewhere replaces it only if its source takes precedence. So
the order in which sources are consulted does not matter, and of one source the
first value stays.

What a source supplies is a layer: a value for some of the settings.
-/

namespace Graticule

/-- Where the value of a setting comes from. -/
inductive Source where
  | default
  | file
  | environment
  | override
deriving DecidableEq, Repr

namespace Source

/-- Every source, in the order of precedence. -/
def all : List Source := [default, file, environment, override]

/-- A value from a source of higher precedence replaces one of lower. -/
def precedence : Source → Nat
  | default => 0
  | file => 1
  | environment => 2
  | override => 3

/-- The name of the source. -/
def name : Source → String
  | default => "Default"
  | file => "File"
  | environment => "Environment"
  | override => "Override"

/-- The source of a name. -/
def ofName? (name : String) : Option Source := all.find? fun s => s.name = name

end Source

/-- A value that remembers its source. -/
structure Setting (β : Type) where
  /-- The value. -/
  value : β
  /-- Where it comes from. -/
  source : Source
deriving DecidableEq, Repr

namespace Setting

variable {β : Type}

/-- Takes a value from a source that takes precedence. -/
def update (s : Setting β) (value : β) (source : Source) : Setting β :=
  if s.source.precedence < source.precedence then ⟨value, source⟩ else s

/-- Takes what a source supplies, if it supplies something. -/
def supply (s : Setting β) (source : Source) : Option β → Setting β
  | some value => s.update value source
  | none => s

end Setting

/-- What one source supplies. -/
structure Layer where
  /-- The unit of lengths. -/
  unit : Option LengthUnit := none
  /-- The number of steps of a circle. -/
  circleSteps : Option Nat := none
  /-- The tolerance of a simplification. -/
  tolerance : Option Float := none
  /-- Simplification leaves the coarser pass out. -/
  highQuality : Option Bool := none

/-- All settings with their sources. -/
structure Settings where
  /-- The unit of lengths. -/
  unit : Setting LengthUnit
  /-- The number of steps of a circle. -/
  circleSteps : Setting Nat
  /-- The tolerance of a simplification. -/
  tolerance : Setting Float
  /-- Simplification leaves the coarser pass out. -/
  highQuality : Setting Bool

namespace Settings

/-- The settings before any source has been consulted. -/
def initial : Settings :=
  let d : Defaults := {}
  { unit := ⟨d.unit, .default⟩
    circleSteps := ⟨d.circleSteps, .default⟩
    tolerance := ⟨d.tolerance, .default⟩
    highQuality := ⟨d.highQuality, .default⟩ }

/-- The settings after a source has been consulted. -/
def supply (s : Settings) (source : Source) (layer : Layer) : Settings where
  unit := s.unit.supply source layer.unit
  circleSteps := s.circleSteps.supply source layer.circleSteps
  tolerance := s.tolerance.supply source layer.tolerance
  highQuality := s.highQuality.supply source layer.highQuality

/-- The defaults that are in force. -/
def defaults (s : Settings) : Defaults where
  unit := s.unit.value
  circleSteps := s.circleSteps.value
  tolerance := s.tolerance.value
  highQuality := s.highQuality.value

/-- The settings by their names, as texts with their sources. -/
def inspect (s : Settings) : List (String × String × Source) :=
  [("default_unit", s.unit.value.name, s.unit.source),
    ("circle_steps", toString s.circleSteps.value, s.circleSteps.source),
    ("simplify_tolerance", Layout.plain.text s.tolerance.value, s.tolerance.source),
    ("simplify_high_quality", if s.highQuality.value then "true" else "false",
      s.highQuality.source)]

end Settings

end Graticule
