import Graticule.Coordinates
import Graticule.Proofs.Segments

/-!
# Flattening by recursion

The points of a geometry and its segments are read off its leaves, and the leaves are
found with a list of geometries still to be looked at. `flatten` has no such list: it goes
through a geometry by recursion on the nesting and takes something from each point, line
and ring, the members of a collection one after the other. Points and segments are two
readings of it.

So it does not matter how the members of a collection are grouped. `Unnests` says that
one geometry is another with a collection inside it, at any depth, replaced by its
members.
-/

namespace Graticule

variable {α β γ : Type}

/-- Each element of a list, but the last, with the one after it. -/
def consecutive : List β → List (β × β)
  | a :: b :: rest => (a, b) :: consecutive (b :: rest)
  | _ => []

theorem legs_eq_consecutive (points : List (Point α)) : legs points = consecutive points := by
  match points with
  | [] | [_] => rfl
  | a :: b :: rest =>
      rw [consecutive, ← legs_eq_consecutive (b :: rest)]
      rfl

namespace Geometry

section

variable (ofPoint : Point α → List γ) (ofLine ofRing : List (Point α) → List γ)

mutual

/-- What is taken from the points, the lines and the rings of a geometry, from left to
right. -/
def flatten : Geometry α → List γ
  | .point p => ofPoint p
  | .multiPoint ps _ => ps.flatMap ofPoint
  | .lineString l => ofLine l.points
  | .multiLineString ls _ => ls.flatMap fun l => ofLine l.points
  | .polygon p => p.rings.flatMap ofRing
  | .multiPolygon ps _ => ps.flatMap fun p => p.rings.flatMap ofRing
  | .collection members _ => flattenAll members

/-- What is taken from several geometries, one after the other. -/
def flattenAll : List (Geometry α) → List γ
  | [] => []
  | g :: rest => flatten g ++ flattenAll rest

end

theorem flattenAll_eq (members : List (Geometry α)) :
    flattenAll ofPoint ofLine ofRing members
      = members.flatMap (flatten ofPoint ofLine ofRing) := by
  induction members with
  | nil => rfl
  | cons g rest ih => rw [flattenAll, ih, List.flatMap_cons]

theorem flatten_collection (members : List (Geometry α)) (bbox : Option (Box α)) :
    flatten ofPoint ofLine ofRing (collection members bbox)
      = members.flatMap (flatten ofPoint ofLine ofRing) := by
  rw [flatten, flattenAll_eq]

/-! ## The walk over the leaves -/

variable {ofPoint ofLine ofRing} {leaf : Geometry α → List γ}

/-- What is taken from the leaves that the walk finds is what the recursion takes, if it
is so for each leaf alone. -/
theorem flatMap_leaves
    (hleaf : ∀ g, (∀ members bbox, g = collection members bbox → False) →
      leaf g = flatten ofPoint ofLine ofRing g) (g : Geometry α) :
    g.leaves.flatMap leaf = flatten ofPoint ofLine ofRing g := by
  induction g using nested_induction with
  | leaf g hg => rw [leaves_of_ne_collection hg, List.flatMap_singleton, hleaf g hg]
  | collection members bbox ih =>
      rw [leaves_collection, List.flatMap_assoc, flatten_collection]
      exact List.flatMap_congr ih

end

/-- The part of a ring that is counted: all of it, or all but the last point. -/
def ringPart (dropLast : Bool) (ring : List (Point α)) : List (Point α) :=
  if dropLast then ring.dropLast else ring

theorem coordinates_eq_flatten (dropLast : Bool) (g : Geometry α) :
    g.coordinates dropLast = g.flatten (fun p => [p]) id (ringPart dropLast) := by
  refine flatMap_leaves (fun g hg => ?_) g
  cases g with
  | multiPoint ps _ => exact (List.flatMap_singleton' ps).symm
  | collection members bbox => exact (hg members bbox rfl).elim
  | _ => rfl

theorem segments_eq_flatten (g : Geometry α) :
    g.segments = g.flatten (fun _ => []) consecutive consecutive := by
  have hlegs : legs (α := α) = consecutive := funext legs_eq_consecutive
  refine flatMap_leaves (fun g hg => ?_) g
  cases g with
  | multiPoint ps _ => simp [leafSegments, flatten]
  | collection members bbox => exact (hg members bbox rfl).elim
  | _ => simp only [leafSegments, flatten, hlegs]

/-! ## Members in place of a collection -/

/-- The second geometry is the first with one collection inside it, at any depth, replaced
by its members. -/
inductive Unnests : Geometry α → Geometry α → Prop where
  | member (before members after : List (Geometry α)) (inner outer : Option (Box α)) :
      Unnests (collection (before ++ collection members inner :: after) outer)
        (collection (before ++ members ++ after) outer)
  | inside {g h : Geometry α} (before after : List (Geometry α)) (outer : Option (Box α))
      (hgh : Unnests g h) :
      Unnests (collection (before ++ g :: after) outer) (collection (before ++ h :: after) outer)

theorem Unnests.flatten_eq {g h : Geometry α} (hgh : Unnests g h) (ofPoint : Point α → List γ)
    (ofLine ofRing : List (Point α) → List γ) :
    g.flatten ofPoint ofLine ofRing = h.flatten ofPoint ofLine ofRing := by
  induction hgh with
  | member before members after inner outer =>
      -- what a collection flattens to is what its members do, so its brackets do not matter
      rw [flatten_collection, flatten_collection, List.flatMap_append, List.flatMap_cons,
        flatten_collection, List.flatMap_append, List.flatMap_append, List.append_assoc]
  | inside before after outer _ ih =>
      rw [flatten_collection, flatten_collection, List.flatMap_append, List.flatMap_append,
        List.flatMap_cons, List.flatMap_cons, ih]

/-- The points of a geometry and its segments are what recursion takes from its parts:
every point, or all but the last of each ring, and every two points that follow one
another on a line or a ring. Neither changes when a collection inside another is replaced
by its members. -/
theorem flattened_by_recursion (g : Geometry α) (dropLast : Bool) :
    g.coordinates dropLast = g.flatten (fun p => [p]) id (ringPart dropLast)
      ∧ g.segments = g.flatten (fun _ => []) consecutive consecutive
      ∧ ∀ h, Unnests g h →
        h.coordinates dropLast = g.coordinates dropLast ∧ h.segments = g.segments := by
  refine ⟨coordinates_eq_flatten dropLast g, segments_eq_flatten g, fun h hgh => ⟨?_, ?_⟩⟩
  · rw [coordinates_eq_flatten, coordinates_eq_flatten, hgh.flatten_eq]
  · rw [segments_eq_flatten, segments_eq_flatten, hgh.flatten_eq]

/-- A polygon and two points are taken out of the collection they are in. The polygon has a
ring of one point, which is left out, and which has no segment. -/
theorem flattened_by_recursion_of_collection_inside :
    let square : List (Point Rat) := [⟨0, 0, none⟩, ⟨4, 0, none⟩, ⟨4, 4, some 1⟩, ⟨0, 0, none⟩]
    let inner : List (Geometry Rat) := [.polygon ⟨[square, [⟨1, 1, none⟩]], none⟩,
      .multiPoint [⟨5, 5, none⟩, ⟨6, 6, none⟩] none]
    let line : Geometry Rat := .lineString ⟨[⟨7, 7, none⟩, ⟨8, 8, none⟩], none⟩
    let nested : Geometry Rat := .collection [.point ⟨9, 9, none⟩, .collection inner none, line] none
    let flat : Geometry Rat := .collection (.point ⟨9, 9, none⟩ :: (inner ++ [line])) none
    Unnests nested flat ∧ flat.coordinates true = nested.coordinates true
      ∧ flat.segments = nested.segments := by
  intro square inner line nested flat
  have hunnests : Unnests nested flat := .member [.point ⟨9, 9, none⟩] inner [line] none none
  exact ⟨hunnests, (flattened_by_recursion nested true).2.2 flat hunnests⟩

end Geometry

end Graticule
