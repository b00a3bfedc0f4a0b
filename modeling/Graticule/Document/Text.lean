import Graticule.Document.Writer
import Graticule.Error

/-!
# Values as text

A value is read from a text in two steps, and the whole text has to be a
document before anything of it is decoded: a fault of the format anywhere wins
over a fault of a position or a box.
-/

namespace Graticule.GeoJson

/-- The value a text holds. -/
def read (text : String) : Except (Error Float) (GeoJson Float) :=
  match Document.read text with
  | .error fault => .error (.unreadable fault)
  | .ok document =>
    match document.decode with
    | .error fault => .error (.undecodable fault)
    | .ok value => .ok value

/-- The text of a value. -/
def write (value : GeoJson Float) : String := (Document.encode value).write

end Graticule.GeoJson
