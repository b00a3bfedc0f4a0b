import Graticule.Json.Reader
import Graticule.Unit

/-!
# Units as JSON

A unit is written as the string of its canonical name. It is read from the
string of any of its names, or from an object with that name for its only
member and null in it.
-/

namespace Graticule.LengthUnit

/-- The unit a JSON value stands for. -/
def ofJson? : Json → Option LengthUnit
  | .string name => ofName? name
  | .object [(name, .null)] => ofName? name
  | _ => none

/-- The unit as JSON. -/
def toJson (u : LengthUnit) : Json := .string u.name

/-- The unit a JSON text holds. -/
def read? (text : String) : Option LengthUnit :=
  (Json.read? Json.documentRules text).bind ofJson?

end Graticule.LengthUnit
