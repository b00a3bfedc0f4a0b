import Graticule.Geometry

/-!
# Equality of geometries

Two geometries are equal when they are of one kind, carry equal boxes, and
have equal parts in the same order. Collections are compared with a list of
pairs still to be compared, so they may be nested to any depth: two
collections of as many members leave the pairs of their members on the list.

`alike` says the same by recursion on the nesting.
-/

namespace Graticule

variable {α : Type} [Scalar α]

instance : BEq (LineString α) where
  beq a b := a.points == b.points && a.bbox == b.bbox

instance : BEq (Polygon α) where
  beq a b := a.rings == b.rings && a.bbox == b.bbox

namespace Geometry

/-- Equality of two geometries that are not both collections. -/
def sameLeaf : Geometry α → Geometry α → Bool
  | point p, point q => p == q
  | multiPoint ps b, multiPoint qs c => ps == qs && b == c
  | lineString l, lineString m => l == m
  | multiLineString ls b, multiLineString ms c => ls == ms && b == c
  | polygon p, polygon q => p == q
  | multiPolygon ps b, multiPolygon qs c => ps == qs && b == c
  | _, _ => false

/-- The first sides of the pairs, measured together. -/
def pairsSize (pairs : List (Geometry α × Geometry α)) : Nat :=
  sizeSum (pairs.map Prod.fst)

omit [Scalar α] in
theorem pairsSize_zip_append_le (ms ns : List (Geometry α))
    (rest : List (Geometry α × Geometry α)) :
    pairsSize (ms.zip ns ++ rest) ≤ sizeSum ms + pairsSize rest := by
  induction ms generalizing ns with
  | nil => simp [pairsSize, sizeSum]
  | cons m ms ih =>
      cases ns with
      | nil => simp [pairsSize]
      | cons n ns =>
          have := ih ns
          simp only [pairsSize, List.zip_cons_cons, List.cons_append,
            List.map_cons, sizeSum] at this ⊢
          omega

/-- The sides of every pending pair are equal. -/
def allSame : (pending : List (Geometry α × Geometry α)) → Bool
  | [] => true
  | (.collection ms b, .collection ns c) :: rest =>
    if b == c && ms.length == ns.length then allSame (ms.zip ns ++ rest)
    else false
  | (g, h) :: rest => if sameLeaf g h then allSame rest else false
termination_by pending => pairsSize pending
decreasing_by
  · have := pairsSize_zip_append_le ms ns rest
    simp only [pairsSize, List.map_cons, sizeSum, size] at this ⊢
    omega
  · simp only [pairsSize, List.map_cons, sizeSum]
    have := size_pos g
    omega

instance : BEq (Geometry α) := ⟨fun g h => allSame [(g, h)]⟩

mutual

/-- Equality by recursion: collections are equal when their boxes are and
their members are, one by one. -/
def alike : Geometry α → Geometry α → Bool
  | .collection ms b, .collection ns c => b == c && alikeMembers ms ns
  | g, h => sameLeaf g h

/-- As many members on both sides, and equal ones in order. -/
def alikeMembers : List (Geometry α) → List (Geometry α) → Bool
  | [], [] => true
  | m :: ms, n :: ns => alike m n && alikeMembers ms ns
  | _, _ => false

end

end Geometry

end Graticule
