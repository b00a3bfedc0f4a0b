import Graticule.Geometry

/-!
# Leaves of a geometry

The leaves of a geometry are the parts of it that are not collections, in the
order of the document. They are found with a list of geometries still to be
looked at, so a collection may be nested to any depth: the members of a
collection take its place at the front of the list.

`leafList` says the same by recursion on the nesting.
-/

namespace Graticule.Geometry

variable {α : Type}

/-- Lays the leaves of the pending geometries onto those already met, the last
one met on top. -/
def layLeaves (met : List (Geometry α)) :
    (pending : List (Geometry α)) → List (Geometry α)
  | [] => met
  | .collection members _ :: rest => layLeaves met (members ++ rest)
  | g :: rest => layLeaves (g :: met) rest
termination_by pending => sizeSum pending
decreasing_by
  · simp only [sizeSum_append, sizeSum, size]
    omega
  · simp only [sizeSum]
    have := size_pos g
    omega

/-- The leaves, the last of the document first. -/
def leavesReversed (g : Geometry α) : List (Geometry α) := layLeaves [] [g]

/-- The leaves, in the order of the document. -/
def leaves (g : Geometry α) : List (Geometry α) := g.leavesReversed.reverse

mutual

/-- The leaves by recursion: those of a collection are those of its members,
one member after the other. -/
def leafList : Geometry α → List (Geometry α)
  | .collection members _ => leafLists members
  | g => [g]

/-- The leaves of several geometries, one after the other. -/
def leafLists : List (Geometry α) → List (Geometry α)
  | [] => []
  | g :: rest => leafList g ++ leafLists rest

end

end Graticule.Geometry
