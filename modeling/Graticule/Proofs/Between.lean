import Graticule.Proofs.Distinct
import Graticule.Proofs.Snapping
import Mathlib.Data.List.Chain

/-!
# The part of a line between two points

The part of a line between two points joins their snaps by the vertices between them,
from the snap on the earlier segment to the one on the later. The order of the two
points does not matter, as long as their segments differ. On one segment nothing tells
which snap is first, and the part is given in the order of the points: two orders, two
lines, each the other backwards.

The vertices between are those after the start of the later segment and up to it, so
the end of the earlier segment is one of them. When the earlier snap is that end, the
line has it twice. It has nothing else twice: the later snap is not at the start of
its own segment.
-/

namespace Graticule

variable {α : Type}

/-- Neighbours in a list of points are different points. -/
def NoRepeat [Scalar α] (points : List (Point α)) : Prop :=
  points.IsChain fun u v => (u == v) = false

instance [Scalar α] (points : List (Point α)) : Decidable (NoRepeat points) :=
  inferInstanceAs (Decidable (points.IsChain _))

namespace Snap

/-- The points from one snap to another on the same segment or a later one. -/
def through (first last : Snap α) (path : List (Point α)) : List (Point α) :=
  first.point :: ((path.drop (first.index + 1)).take (last.index - first.index) ++ [last.point])

/-- The snap is the vertex its segment ends at. -/
def AtEnd [Scalar α] (s : Snap α) (path : List (Point α)) : Prop :=
  ∃ v, path[s.index + 1]? = some v ∧ (s.point == v) = true

instance [Scalar α] (s : Snap α) (path : List (Point α)) : Decidable (s.AtEnd path) :=
  decidable_of_iff (path[s.index + 1]?.any (s.point == ·) = true) (Option.any_eq_true _ _)

theorem through_of_index_eq {first last : Snap α} (path : List (Point α))
    (h : first.index = last.index) : through first last path = [first.point, last.point] := by
  rw [through, h, Nat.sub_self, List.take_zero, List.nil_append]

/-- Between different segments the first vertex is the end of the earlier segment, and
the last one is the start of the later. -/
theorem through_of_index_lt {first last : Snap α} {path : List (Point α)}
    (h : first.index < last.index) (hlast : last.index < path.length) :
    ∃ inner, through first last path = first.point :: (inner ++ [last.point])
      ∧ inner <:+: path ∧ inner.head? = path[first.index + 1]?
      ∧ inner.getLast? = path[last.index]? := by
  refine ⟨_, rfl, ?_, ?_, ?_⟩
  · exact (List.take_prefix _ _).isInfix.trans (List.drop_suffix _ _).isInfix
  · rw [List.head?_take, if_neg (by omega), List.head?_drop]
  · rw [List.getLast?_eq_getElem?, List.length_take, List.length_drop, List.getElem?_take,
      if_pos (by omega), List.getElem?_drop]
    congr 1
    omega

/-- What is between two snaps has a vertex twice only where the earlier snap is the end
of its segment. -/
theorem noRepeat_through [Scalar α] {first last : Snap α} {path : List (Point α)}
    (hpath : NoRepeat path) (hle : first.index ≤ last.index) (hlast : last.index < path.length)
    (hpoints : (first.point == last.point) = false)
    (hstart : first.index < last.index → ∀ v, path[last.index]? = some v →
      (v == last.point) = false) :
    NoRepeat (through first last path) ↔ ¬ (first.index < last.index ∧ first.AtEnd path) := by
  unfold NoRepeat
  rcases Nat.eq_or_lt_of_le hle with heq | hlt
  · rw [through_of_index_eq path heq]
    simp [hpoints, heq]
  · obtain ⟨inner, hthrough, hinfix, hhead, hlastInner⟩ := through_of_index_lt hlt hlast
    have hinner : inner.IsChain fun u v => (u == v) = false := hpath.infix hinfix
    obtain ⟨v, hv⟩ : ∃ v, path[first.index + 1]? = some v :=
      ⟨_, List.getElem?_eq_getElem (by omega)⟩
    rw [hthrough, List.isChain_cons, List.isChain_append, List.head?_append, hhead, hv,
      hlastInner]
    constructor
    · rintro ⟨hfirst, -⟩ ⟨-, w, hw, hsame⟩
      obtain rfl := Option.some.inj (hv.symm.trans hw)
      rw [hfirst v rfl] at hsame
      cases hsame
    · intro hrepeat
      refine ⟨?_, hinner, List.isChain_singleton _, ?_⟩
      · intro w hw
        obtain rfl := Option.some.inj hw
        apply Bool.eq_false_iff.mpr
        intro hsame
        exact hrepeat ⟨hlt, v, hv, hsame⟩
      · intro u hu w hw
        obtain rfl := Option.some.inj hw
        exact hstart hlt u hu

end Snap

/-! ## The order of the points -/

variable [Trig α] {p q : Point α} {path : List (Point α)} {a b : Snap α}

theorem lineBetween_eq (hne : (p == q) = false) (ha : Snap.toLine p path default = .ok a)
    (hb : Snap.toLine q path default = .ok b) :
    lineBetween p q path = .ok
      ⟨if a.index ≤ b.index then a.through b path else b.through a path, none⟩ := by
  have hlength : ¬ path.length < 2 := by
    have := (Snap.toLine_eq_ok ha).1
    omega
  have hdistinct : ¬ (p == q) = true := by simp [hne]
  have hparts : lineBetween p q path
      = .ok ⟨(if a.index ≤ b.index then (a, b) else (b, a)).1.through
          (if a.index ≤ b.index then (a, b) else (b, a)).2 path, none⟩ := by
    simp only [lineBetween, if_neg hlength, if_neg hdistinct, ha, hb]
    rfl
  rw [hparts]
  split
  · rfl
  · rfl

theorem lineBetween_of_index_eq (hne : (p == q) = false)
    (ha : Snap.toLine p path default = .ok a) (hb : Snap.toLine q path default = .ok b)
    (h : a.index = b.index) : lineBetween p q path = .ok ⟨[a.point, b.point], none⟩ := by
  rw [lineBetween_eq hne ha hb, if_pos h.le, Snap.through_of_index_eq path h]

/-- Points that snap to different segments may be given in either order. -/
theorem lineBetween_comm [Scalar.LawfulSame α] (hne : (p == q) = false)
    (ha : Snap.toLine p path default = .ok a) (hb : Snap.toLine q path default = .ok b)
    (h : a.index ≠ b.index) : lineBetween p q path = lineBetween q p path := by
  have hne' : (q == p) = false := by rwa [BEq.comm]
  rw [lineBetween_eq hne ha hb, lineBetween_eq hne' hb ha]
  rcases Nat.lt_or_gt_of_ne h with hlt | hgt
  · rw [if_pos hlt.le, if_neg (by omega)]
  · rw [if_neg (by omega), if_pos hgt.le]

end Graticule
