import Graticule.Feature
import Graticule.Scalar.Binary64

/-!
# Equality rests on identity

Points compare by identity of their components, and everything above them
compares by its points. So where identity is an equivalence, equality of
points, boxes, lines and polygons is reflexive, even on values that are not
numbers.

Geometries are compared with a list of pairs still to be compared.
`allSame_eq` says what is on that list does not matter: the loop answers
whether every pending pair is `alike`, which is the comparison by recursion on
the nesting. Everything else about equal geometries is shown of `alike`.
-/

namespace Graticule

/-- Identity of scalars is an equivalence. -/
class Scalar.LawfulSame (α : Type) [Scalar α] : Prop where
  /-- Every value is itself. -/
  refl (a : α) : Scalar.same a a = true
  /-- The order of the two does not matter. -/
  symm (a b : α) : Scalar.same a b = true → Scalar.same b a = true
  /-- Values that are the same as a third are the same. -/
  trans (a b c : α) :
    Scalar.same a b = true → Scalar.same b c = true → Scalar.same a c = true

theorem Binary64.same_iff (a b : Float) :
    Scalar.same a b = true
      ↔ Binary64.canonical a.toBits = Binary64.canonical b.toBits :=
  beq_iff_eq

instance : Scalar.LawfulSame Float where
  refl a := (Binary64.same_iff a a).mpr rfl
  symm a b h := (Binary64.same_iff b a).mpr ((Binary64.same_iff a b).mp h).symm
  trans a b c h k := (Binary64.same_iff a c).mpr
    (((Binary64.same_iff a b).mp h).trans ((Binary64.same_iff b c).mp k))

variable {α : Type} [Scalar α]

/-! ## Reflexivity below geometries -/

section

variable [Scalar.LawfulSame α]

instance : ReflBEq (Point α) where
  rfl {p} := by
    obtain ⟨longitude, latitude, altitude⟩ := p
    show (Scalar.same longitude longitude && Scalar.same latitude latitude
      && (match altitude, altitude with
          | some a, some b => Scalar.same a b
          | none, none => true
          | _, _ => false)) = true
    cases altitude <;> simp [Scalar.LawfulSame.refl]

instance : ReflBEq (Box α) where
  rfl {b} := by
    show (b.southwest == b.southwest && b.northeast == b.northeast) = true
    simp

instance : ReflBEq (LineString α) where
  rfl {l} := by
    show (l.points == l.points && l.bbox == l.bbox) = true
    simp

instance : ReflBEq (Polygon α) where
  rfl {p} := by
    show (p.rings == p.rings && p.bbox == p.bbox) = true
    simp

end

namespace Geometry

/-! ## The loop over pairs is the recursion -/

theorem alikeMembers_eq (ms ns : List (Geometry α)) :
    alikeMembers ms ns
      = (ms.length == ns.length && (ms.zip ns).all fun p => alike p.1 p.2) := by
  induction ms generalizing ns with
  | nil => cases ns <;> simp [alikeMembers]
  | cons m ms ih =>
      cases ns with
      | nil => simp [alikeMembers]
      | cons n ns =>
          simp only [alikeMembers, ih, List.length_cons, List.zip_cons_cons,
            List.all_cons]
          cases alike m n <;> simp

/-- The comparison by a list of pairs answers whether the sides of every pair
are equal by recursion. -/
theorem allSame_eq (pending : List (Geometry α × Geometry α)) :
    allSame pending = pending.all fun p => alike p.1 p.2 := by
  fun_induction allSame pending with
  | case1 => rfl
  | case2 ms b ns c rest heq ih =>
      simp only [Bool.and_eq_true] at heq
      simp only [ih, List.all_append, List.all_cons, alike, alikeMembers_eq,
        heq.1, heq.2, Bool.true_and]
  | case3 ms b ns c rest hne =>
      simp only [List.all_cons, alike, alikeMembers_eq, ← Bool.and_assoc]
      simp [hne]
  | case4 g h rest hkind heq ih =>
      have hal : alike g h = sameLeaf g h := by
        rw [alike.eq_def]
        split
        · exact absurd rfl (hkind _ _ _ _ rfl)
        · rfl
      simp [ih, hal, heq]
  | case5 g h rest hkind hne =>
      have hal : alike g h = sameLeaf g h := by
        rw [alike.eq_def]
        split
        · exact absurd rfl (hkind _ _ _ _ rfl)
        · rfl
      simp [hal, hne]

theorem beq_eq_alike (g h : Geometry α) : (g == h) = alike g h := by
  show allSame [(g, h)] = alike g h
  simp [allSame_eq]

/-! ## Reflexivity of geometries -/

mutual

theorem alike_self [Scalar.LawfulSame α] (g : Geometry α) : alike g g = true := by
  match g with
  | .point _ | .multiPoint .. | .lineString _ | .multiLineString .. | .polygon _
  | .multiPolygon .. => simp [alike, sameLeaf]
  | .collection ms b => rw [alike, beq_self_eq_true, alikeMembers_self ms, Bool.and_self]

theorem alikeMembers_self [Scalar.LawfulSame α] (gs : List (Geometry α)) :
    alikeMembers gs gs = true := by
  match gs with
  | [] => rfl
  | g :: rest => rw [alikeMembers, alike_self g, alikeMembers_self rest, Bool.and_self]

end

instance [Scalar.LawfulSame α] : ReflBEq (Geometry α) where
  rfl {g} := (beq_eq_alike g g).trans (alike_self g)

end Geometry

end Graticule
