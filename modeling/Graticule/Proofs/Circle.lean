import Graticule.Circle
import Graticule.Proofs.Identity
import Graticule.Proofs.Validity

/-!
# Circles as rings

A circle is drawn as one ring, whose points are those of its steps and the first of them once
more. So a check never finds it open, whatever the coordinates are: the first point is the last
one, and a point is equal to itself even where it is not a number.

What the check asks besides is written apart from the rule for circles, and the two do not meet
everywhere. A circle needs one step, and a ring of four points needs three.
-/

namespace Graticule

section

variable {α : Type} [Trig α] {center : Point α} {radius : α} {steps : Nat} {unit : LengthUnit}

theorem length_circlePoints (center : Point α) (radius : α) (steps : Nat) (unit : LengthUnit) :
    (circlePoints center radius steps unit).length = steps := by
  rw [circlePoints, List.length_map, List.length_range]

/-- All a circle needs is a step. -/
theorem circle_of_one_le (center : Point α) (radius : α) {steps : Nat} (unit : LengthUnit)
    (h : 1 ≤ steps) : ∃ polygon, circle center radius steps unit = .ok polygon := by
  unfold circle
  split
  · next hnil =>
      have hlength := length_circlePoints center radius steps unit
      rw [hnil, List.length_nil] at hlength
      omega
  · exact ⟨_, rfl⟩

theorem circle_of_zero (center : Point α) (radius : α) (unit : LengthUnit) :
    circle center radius 0 unit = .error (.tooFewSteps 0) := rfl

theorem exists_circle_iff : (∃ area, circle center radius steps unit = .ok area) ↔ 1 ≤ steps := by
  constructor
  · intro h
    obtain ⟨area, harea⟩ := h
    cases steps with
    | zero => cases harea
    | succ n => omega
  · intro h
    exact circle_of_one_le center radius unit h

theorem circle_eq_ok {area : Polygon α} (h : circle center radius steps unit = .ok area) :
    ∃ first rest, area = ⟨[first :: (rest ++ [first])], none⟩ ∧ rest.length + 1 = steps := by
  unfold circle at h
  split at h
  · cases h
  · next first rest hpoints =>
      have hlength := congrArg List.length hpoints
      rw [length_circlePoints, List.length_cons] at hlength
      cases h
      exact ⟨first, rest, rfl, hlength.symm⟩

end

/-! ## The check of a ring that is closed by its first point -/

theorem ringDefects_close {α : Type} [Scalar α] [Scalar.LawfulSame α] (first : Point α)
    (rest : List (Point α)) :
    ringDefects (first :: (rest ++ [first]))
      = (if rest.length + 1 < 3 then [.shortRing (rest.length + 1 + 1)] else [])
        ++ (if (first :: (rest ++ [first])).all Point.isFinite then [] else [.notFinite]) := by
  have hlength : (first :: (rest ++ [first])).length = rest.length + 1 + 1 := by simp
  have hlast : (first :: (rest ++ [first])).getLast? = some first := by
    rw [← List.cons_append, List.getLast?_concat]
  have hshort : rest.length + 1 + 1 < 4 ↔ rest.length + 1 < 3 := by omega
  rw [ringDefects, hlength, hlast, List.head?_cons, beq_self_eq_true, if_pos rfl,
    List.append_nil]
  simp only [hshort]

/-- What is reported of the outer ring of a polygon. -/
def Defect.ofOuterRing (d : Defect) : Issue := ⟨"Polygon exterior", d.reason⟩

theorem validate_polygon_of_one_ring (ring : List (Point Float)) :
    (Geometry.polygon ⟨[ring], none⟩).validate.errors
      = (ringDefects ring).map Defect.ofOuterRing := by
  rw [Geometry.validate_eq, Geometry.flaws_eq]
  show ((ringFlaws .outerRing ring ++ []).map Flaw.issue : List Issue) = _
  rw [List.append_nil, ringFlaws, List.map_map]
  rfl

theorem Defect.shortRing_reason_ne (found : Nat) :
    (Defect.shortRing found).reason ≠ Defect.openRing.reason := by
  intro heq
  -- the texts part at the verb, before the number begins
  have hletters : (Defect.shortRing found).reason.toList
      = "Linear ring must have at least 4 points, found ".toList ++ (toString found).toList :=
    String.toList_append
  have hlong : 17 < "Linear ring must have at least 4 points, found ".toList.length := by decide
  have hshort : (Defect.shortRing found).reason.toList[17]? = some 'h' := by
    rw [hletters, List.getElem?_append_left hlong]
    decide
  have hopen : Defect.openRing.reason.toList[17]? = some 'b' := by decide
  rw [heq, hopen] at hshort
  cases hshort

/-- A circle is drawn if it has a step. Then it is one ring, with a point for each step and one
more, of which a check says that it is too short if it has one step or two, and that it is not
finite if it is not, and nothing else. In particular it is never open. -/
theorem circle_is_closed (center : Point Float) (radius : Float) (steps : Nat)
    (unit : LengthUnit) :
    ((∃ area, circle center radius steps unit = .ok area) ↔ 1 ≤ steps)
      ∧ ∀ area, circle center radius steps unit = .ok area →
        ∃ ring, area.rings = [ring] ∧ ring.length = steps + 1
          ∧ (Geometry.polygon area).validate.errors
            = (if steps < 3 then [(Defect.shortRing (steps + 1)).ofOuterRing] else [])
              ++ (if ring.all Point.isFinite then [] else [Defect.notFinite.ofOuterRing])
          ∧ ∀ issue ∈ (Geometry.polygon area).validate.errors,
            issue.reason ≠ Defect.openRing.reason := by
  refine ⟨exists_circle_iff, ?_⟩
  intro area harea
  obtain ⟨first, rest, rfl, rfl⟩ := circle_eq_ok harea
  have herrors : (Geometry.polygon ⟨[first :: (rest ++ [first])], none⟩).validate.errors
      = (if rest.length + 1 < 3 then [(Defect.shortRing (rest.length + 1 + 1)).ofOuterRing] else [])
        ++ (if (first :: (rest ++ [first])).all Point.isFinite then []
            else [Defect.notFinite.ofOuterRing]) := by
    rw [validate_polygon_of_one_ring, ringDefects_close, List.map_append,
      apply_ite (List.map Defect.ofOuterRing), apply_ite (List.map Defect.ofOuterRing)]
    rfl
  refine ⟨_, rfl, by simp, herrors, ?_⟩
  intro issue hissue
  rw [herrors, List.mem_append] at hissue
  rcases hissue with hshort | hfinite
  · split at hshort
    · rw [List.mem_singleton.mp hshort]
      exact Defect.shortRing_reason_ne _
    · cases hshort
  · split at hfinite
    · cases hfinite
    · rw [List.mem_singleton.mp hfinite]
      decide

/-- With three steps a ring has as many points as it needs. -/
theorem circle_is_closed_of_three_steps :
    ∃ ring : List (Point Float),
      circle ⟨8, 47, none⟩ 5 3 .kilometers = .ok ⟨[ring], none⟩
        ∧ ring.length = 4
        ∧ ∀ issue ∈ (Geometry.polygon ⟨[ring], none⟩).validate.errors,
          issue = Defect.notFinite.ofOuterRing := by
  obtain ⟨hexists, hring⟩ := circle_is_closed ⟨8, 47, none⟩ 5 3 .kilometers
  obtain ⟨area, harea⟩ := hexists.mpr (by decide)
  obtain ⟨first, rest, rfl, -⟩ := circle_eq_ok harea
  obtain ⟨ring, hrings, hlength, herrors, -⟩ := hring _ harea
  cases hrings
  refine ⟨_, harea, hlength, ?_⟩
  intro issue hissue
  rw [herrors, if_neg (by decide), List.nil_append] at hissue
  split at hissue
  · cases hissue
  · exact List.mem_singleton.mp hissue

/-- With two steps a circle is drawn, and its ring is too short. -/
theorem circle_too_short_of_two_steps :
    ∃ area, circle (⟨0, 0, none⟩ : Point Float) 1 2 .kilometers = .ok area
      ∧ ⟨"Polygon exterior", "Linear ring must have at least 4 points, found 3"⟩
        ∈ (Geometry.polygon area).validate.errors := by
  obtain ⟨area, harea⟩ := circle_of_one_le (⟨0, 0, none⟩ : Point Float) 1 .kilometers
    (by decide : 1 ≤ 2)
  obtain ⟨first, rest, rfl, hsteps⟩ := circle_eq_ok harea
  refine ⟨_, harea, ?_⟩
  rw [validate_polygon_of_one_ring, ringDefects_close, hsteps, if_pos (by decide)]
  exact List.mem_cons_self

end Graticule
