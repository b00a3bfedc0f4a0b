import Graticule.Measure
import Graticule.Segment
import Graticule.Proofs.Leaves
import Graticule.Proofs.RealSphere

/-!
# Lengths and areas add up

A length is computed in several ways: leg by leg along a line, ring by ring in a polygon,
and for a collection leaf by leaf, from the last leaf to the first. Where addition is
exact the grouping and the order do not matter, so each of them is one sum, over the
segments of the geometry. The area of a collection is summed over its leaves in the same
way, which makes it the sum over its members.

`ExactSum` is what exact means here. Sums start from a zero, some from the negative one,
and neither may change anything.
-/

namespace Graticule

variable {α β γ : Type}

/-- Addition is exact: sums do not depend on grouping or order, and zeros of either sign
add nothing. -/
class ExactSum (α : Type) [Scalar α] : Prop where
  add_assoc (a b c : α) : a + b + c = a + (b + c)
  add_comm (a b : α) : a + b = b + a
  zero_add (a : α) : 0 + a = a
  neg_zero_add (a : α) : -0 + a = a

instance : ExactSum ℝ where
  add_assoc := add_assoc
  add_comm := add_comm
  zero_add a := by rw [real_ofNat, Nat.cast_zero, zero_add]
  neg_zero_add a := by rw [real_ofNat, Nat.cast_zero, neg_zero, zero_add]

/-! ## Exact totals -/

namespace Scalar

variable [Scalar α] [ExactSum α]

theorem add_neg_zero (a : α) : a + -0 = a := by
  rw [ExactSum.add_comm, ExactSum.neg_zero_add]

/-- There is one zero. -/
theorem neg_zero_eq : (-0 : α) = 0 := by
  rw [← ExactSum.zero_add (-0 : α), add_neg_zero]

/-- A sum from any start is the start and the total. -/
theorem foldl_add_eq (a : α) (xs : List α) : xs.foldl (· + ·) a = a + total xs := by
  induction xs generalizing a with
  | nil => exact (add_neg_zero a).symm
  | cons x xs ih =>
      rw [total, List.foldl_cons, List.foldl_cons, ExactSum.neg_zero_add, ih (a + x), ih x,
        ExactSum.add_assoc]

theorem total_nil : total ([] : List α) = 0 := neg_zero_eq

theorem total_cons (x : α) (xs : List α) : total (x :: xs) = x + total xs := by
  rw [total, List.foldl_cons, ExactSum.neg_zero_add, foldl_add_eq]

theorem total_singleton (x : α) : total [x] = x := by
  rw [total, List.foldl_cons, List.foldl_nil, ExactSum.neg_zero_add]

theorem total_append (xs ys : List α) : total (xs ++ ys) = total xs + total ys := by
  rw [total, List.foldl_append, foldl_add_eq]
  rfl

/-- A total of totals is one total. -/
theorem total_map_flatMap (f : γ → α) (part : β → List γ) (xs : List β) :
    total ((xs.flatMap part).map f) = total (xs.map fun x => total ((part x).map f)) := by
  induction xs with
  | nil => rfl
  | cons x xs ih =>
      rw [List.flatMap_cons, List.map_append, total_append, ih, List.map_cons, total_cons]

theorem total_map_add (f g : β → α) (xs : List β) :
    total (xs.map fun x => f x + g x) = total (xs.map f) + total (xs.map g) := by
  induction xs with
  | nil => exact (ExactSum.neg_zero_add _).symm
  | cons x xs ih =>
      have hswap : g x + (total (xs.map f) + total (xs.map g))
          = total (xs.map f) + (g x + total (xs.map g)) := by
        rw [← ExactSum.add_assoc, ← ExactSum.add_assoc, ExactSum.add_comm (g x)]
      rw [List.map_cons, List.map_cons, List.map_cons, total_cons, total_cons, total_cons, ih,
        ExactSum.add_assoc, hswap, ExactSum.add_assoc]

theorem total_perm {xs ys : List α} (h : xs.Perm ys) : total xs = total ys := by
  induction h with
  | nil => rfl
  | cons x _ ih => rw [total_cons, total_cons, ih]
  | swap x y zs =>
      rw [total_cons, total_cons, total_cons, total_cons, ← ExactSum.add_assoc,
        ← ExactSum.add_assoc, ExactSum.add_comm y]
  | trans _ _ ih ih' => exact ih.trans ih'

end Scalar

namespace Geometry

/-! ## Sums over leaves -/

section

variable [Trig α] [ExactSum α] {measure f : Geometry α → α}

/-- The order in which leaves are met does not matter to a sum over them. -/
theorem sumLeaves_eq_total (measure : Geometry α → α) (members : List (Geometry α)) :
    sumLeaves measure members = Scalar.total ((members.flatMap leaves).map measure) := by
  -- the walk meets the last leaf of the document last and leaves it on top
  have hleaves : layLeaves [] members = (members.flatMap leaves).reverse := by
    rw [layLeaves_eq, leafLists_eq, List.append_nil, funext leaves_eq]
  rw [sumLeaves, ← List.foldl_map, Scalar.foldl_add_eq, ExactSum.zero_add, hleaves,
    List.map_reverse, Scalar.total_perm (List.reverse_perm _)]

/-- What measures each leaf, and sums over the leaves of a collection, sums over the leaves
of any geometry. -/
theorem eq_total_leaves
    (hleaf : ∀ g, (∀ members bbox, g = collection members bbox → False) → f g = measure g)
    (hcollection : ∀ members bbox, f (collection members bbox) = sumLeaves measure members)
    (g : Geometry α) : f g = Scalar.total (g.leaves.map measure) := by
  induction g using nested_induction with
  | leaf g hg =>
      rw [leaves_of_ne_collection hg, List.map_singleton, Scalar.total_singleton, hleaf g hg]
  | collection members bbox _ => rw [hcollection, sumLeaves_eq_total, leaves_collection]

/-- So a collection is the sum of its members. -/
theorem collection_eq_total (hf : ∀ g, f g = Scalar.total (g.leaves.map measure))
    (members : List (Geometry α)) (bbox : Option (Box α)) :
    f (collection members bbox) = Scalar.total (members.map f) := by
  rw [hf, leaves_collection, Scalar.total_map_flatMap, funext hf]

/-! ## Length and area -/

theorem length_eq_total_leaves (unit : LengthUnit) (g : Geometry α) :
    g.length unit = Scalar.total (g.leaves.map (leafLength unit)) := by
  refine eq_total_leaves (fun g hg => ?_) (fun members bbox => rfl) g
  cases g with
  | collection members bbox => exact (hg members bbox rfl).elim
  | _ => rfl

theorem area_eq_total_leaves (g : Geometry α) :
    g.area = Scalar.total (g.leaves.map leafArea) := by
  refine eq_total_leaves (fun g hg => ?_) (fun members bbox => rfl) g
  cases g with
  | collection members bbox => exact (hg members bbox rfl).elim
  | _ => rfl

/-- The length of a polygon is over the segments of its rings, the outer one and the
holes. -/
theorem polygonLength_eq_total (unit : LengthUnit) (p : Polygon α) :
    p.length unit
      = Scalar.total ((p.rings.flatMap legs).map fun (a, b) => distance a b unit) := by
  rw [Scalar.total_map_flatMap]
  rfl

theorem leafLength_eq_total (unit : LengthUnit) (g : Geometry α) :
    g.leafLength unit
      = Scalar.total (g.leafSegments.map fun (a, b) => distance a b unit) := by
  cases g with
  | lineString l => rfl
  | multiLineString ls _ =>
      rw [leafSegments, Scalar.total_map_flatMap]
      rfl
  | polygon p => exact polygonLength_eq_total unit p
  | multiPolygon ps _ =>
      rw [leafSegments, Scalar.total_map_flatMap, leafLength,
        funext (polygonLength_eq_total unit)]
  | _ => exact Scalar.total_nil.symm

/-- A length is the sum of the distances over the segments of the geometry. -/
theorem length_eq_total_segments (unit : LengthUnit) (g : Geometry α) :
    g.length unit = Scalar.total (g.segments.map fun (a, b) => distance a b unit) := by
  rw [length_eq_total_leaves, segments, Scalar.total_map_flatMap,
    funext (leafLength_eq_total unit)]

end

end Geometry

/-- Where addition is exact, the length of a geometry is the sum of the distances over its
segments, each counted once. Lengths and areas of a collection are sums over its members,
and those of a feature collection over its features, of which one without a geometry adds
nothing. -/
theorem measures_additive [Trig α] [ExactSum α] (unit : LengthUnit) :
    (∀ g : Geometry α,
        g.length unit = Scalar.total (g.segments.map fun (a, b) => distance a b unit))
      ∧ (∀ (members : List (Geometry α)) (bbox : Option (Box α)),
        (Geometry.collection members bbox).length unit
            = Scalar.total (members.map (Geometry.length unit))
          ∧ (Geometry.collection members bbox).area = Scalar.total (members.map Geometry.area))
      ∧ ∀ c : FeatureCollection α,
        c.length unit = Scalar.total (c.features.map (Feature.length unit))
          ∧ c.area = Scalar.total (c.features.map Feature.area) := by
  refine ⟨Geometry.length_eq_total_segments unit, fun members bbox => ⟨?_, ?_⟩,
    fun c => ⟨rfl, rfl⟩⟩
  · exact Geometry.collection_eq_total (Geometry.length_eq_total_leaves unit) members bbox
  · exact Geometry.collection_eq_total Geometry.area_eq_total_leaves members bbox

/-- A line, and a triangle with a point in a collection of their own: the line has one
segment, the triangle three and the point none. -/
theorem measures_additive_of_collection_inside :
    let a : Point ℝ := ⟨0, 0, none⟩
    let b : Point ℝ := ⟨1, 0, none⟩
    let c : Point ℝ := ⟨0, 1, some 1⟩
    let line : Geometry ℝ := .lineString ⟨[b, c], none⟩
    let inner : Geometry ℝ := .collection [.polygon ⟨[[a, b, c, a]], none⟩, .point b] none
    let nested : Geometry ℝ := .collection [line, inner] none
    nested.length .kilometers
        = Scalar.total [distance b c .kilometers, distance a b .kilometers,
          distance b c .kilometers, distance c a .kilometers]
      ∧ nested.length .kilometers
        = Scalar.total [line.length .kilometers, inner.length .kilometers]
      ∧ nested.area = Scalar.total [line.area, inner.area] := by
  intro a b c line inner nested
  obtain ⟨hsegments, hmembers, -⟩ := measures_additive (α := ℝ) .kilometers
  have hnested : nested.segments = [(b, c), (a, b), (b, c), (c, a)] := by
    rw [Geometry.segments, Geometry.leaves_eq]
    rfl
  refine ⟨?_, hmembers [line, inner] none⟩
  rw [hsegments, hnested]
  rfl

end Graticule
