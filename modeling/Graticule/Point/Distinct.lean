import Graticule.Point
import Std.Data.HashSet

/-!
# Distinct points

A list of points is thinned to the first of each class of equal points, in one
pass over a set of those already met.
-/

namespace Graticule.Point

variable {α : Type} [Scalar α]

/-- What a pass has met so far, and what it has kept, the last one first. -/
structure Thinned (α : Type) [Scalar α] where
  /-- Every point met. -/
  seen : Std.HashSet (Point α) := ∅
  /-- The points kept, the last one first. -/
  kept : List (Point α) := []

/-- Keeps a point unless an equal one has been met. -/
def Thinned.insert (t : Thinned α) (p : Point α) : Thinned α :=
  if t.seen.contains p then t else ⟨t.seen.insert p, p :: t.kept⟩

/-- The points without those that equal an earlier one, in order. -/
def distinct (points : List (Point α)) : List (Point α) :=
  (points.foldl Thinned.insert {}).kept.reverse

end Graticule.Point
