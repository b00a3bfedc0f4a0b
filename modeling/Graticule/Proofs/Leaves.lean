import Graticule.Coordinates

/-!
# The leaves of a geometry are those of its members

The walk over a nested geometry takes the next pending geometry from the front
of a list and puts the members of a collection in its place. So whatever is
pending, what it still has to lay down is the recursion on each pending
geometry in turn, and `layLeaves_eq` says so.
-/

namespace Graticule.Geometry

variable {α : Type}

/-- What holds of every geometry that is not a collection, and of a collection if it holds
of its members, holds of all geometries. -/
@[elab_as_elim]
theorem nested_induction {motive : Geometry α → Prop}
    (leaf : ∀ g, (∀ members bbox, g = collection members bbox → False) → motive g)
    (collection : ∀ members bbox, (∀ g ∈ members, motive g) → motive (collection members bbox))
    (g : Geometry α) : motive g := by
  cases g with
  | collection members bbox =>
      exact collection members bbox fun g _ => nested_induction leaf collection g
  | _ => exact leaf _ (by simp)

theorem leafLists_append (gs hs : List (Geometry α)) :
    leafLists (gs ++ hs) = leafLists gs ++ leafLists hs := by
  induction gs with
  | nil => rfl
  | cons g rest ih => rw [List.cons_append, leafLists, leafLists, ih, List.append_assoc]

theorem leafLists_eq (members : List (Geometry α)) :
    leafLists members = members.flatMap leafList := by
  induction members with
  | nil => rfl
  | cons g rest ih => rw [leafLists, ih, List.flatMap_cons]

theorem leafList_of_ne_collection {g : Geometry α}
    (h : ∀ members bbox, g = collection members bbox → False) : leafList g = [g] := by
  cases g with
  | collection members bbox => exact (h members bbox rfl).elim
  | _ => rfl

/-- The walk lays down the leaves of all that is pending. -/
theorem layLeaves_eq (met pending : List (Geometry α)) :
    layLeaves met pending = (leafLists pending).reverse ++ met := by
  fun_induction layLeaves met pending with
  | case1 => rfl
  | case2 met members bbox rest ih =>
      rw [ih, leafLists_append, leafLists, leafList]
  | case3 met g rest hleaf ih =>
      rw [ih, leafLists, leafList_of_ne_collection hleaf]
      simp

theorem leaves_eq (g : Geometry α) : g.leaves = leafList g := by
  rw [leaves, leavesReversed, layLeaves_eq]
  simp [leafLists]

theorem leaves_of_ne_collection {g : Geometry α}
    (h : ∀ members bbox, g = collection members bbox → False) : g.leaves = [g] := by
  rw [leaves_eq, leafList_of_ne_collection h]

/-- The leaves of a collection are those of its members, one member after the other. -/
theorem leaves_collection (members : List (Geometry α)) (bbox : Option (Box α)) :
    (collection members bbox).leaves = members.flatMap leaves := by
  have hmember : leafList = leaves (α := α) := funext fun g => (leaves_eq g).symm
  rw [leaves_eq, leafList, leafLists_eq, hmember]

end Graticule.Geometry
