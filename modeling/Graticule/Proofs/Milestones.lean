import Graticule.Proofs.Slice

/-!
# Milestones

A milestone of a path is how far along it a vertex is: zero for the first, and
for every other the sum of the lengths before it, added from left to right. A walk
to a distance only ever asks how the distance compares with the milestones. Before
the last vertex it stops if the milestone is at or past its target; at the last
vertex it stops as soon as the two compare at all.

So a walk fails in one way only. No milestone is at or past the target, and the
last one is not short of it either: one of the two is not a number. The vertex
before the first is never asked for, since the walk starts short of its target.
-/

namespace Graticule

open OrderedScalar

variable {α : Type}

/-- How far from the start of the path its vertices are, in order. -/
def SegmentLengths.milestones [Scalar α] (s : SegmentLengths α) : List α :=
  s.lengths.scanl (· + ·) 0

theorem SegmentLengths.getElem?_milestones [Scalar α] (s : SegmentLengths α) (n : Nat) :
    s.milestones[n]? = if n ≤ s.lengths.length then some (s.upTo n) else none :=
  List.getElem?_scanl

theorem mem_scanl_first [Scalar α] (travelled : α) (lengths : List α) :
    travelled ∈ lengths.scanl (· + ·) travelled := by
  cases lengths <;> simp

theorem mem_scanl_last [Scalar α] (travelled : α) (lengths : List α) :
    lengths.foldl (· + ·) travelled ∈ lengths.scanl (· + ·) travelled := by
  induction lengths generalizing travelled with
  | nil => simp
  | cons d lengths ih =>
      rw [List.scanl_cons, List.foldl_cons]
      exact List.mem_cons_of_mem _ (ih (travelled + d))

section

variable [Trig α] {target travelled : α} {unit : LengthUnit} {previous : Option (Point α)}
  {here : Point α}

/-! ## A walk with nowhere to stop -/

/-- A walk that is short of its target, or has a vertex behind it, ends at a point
unless no milestone is at or past the target and the last is not short of it. -/
theorem walkTo_ends (travelled : α) (previous : Option (Point α)) (here : Point α)
    (rest : List (Point α)) (hfirst : previous = none → ¬ target ≤ travelled) :
    (∃ q, walkTo target unit travelled previous (here :: rest) = .ok q)
      ∨ walkTo target unit travelled previous (here :: rest) = .error .noSuchVertex
        ∧ (∀ d ∈ (legLengths (here :: rest) unit).scanl (· + ·) travelled, ¬ target ≤ d)
        ∧ ¬ travelledTo unit travelled (here :: rest) ≤ target := by
  have harrive (hle : target ≤ travelled) :
      ∃ q, arrive target unit travelled previous here = .ok q := by
    cases previous with
    | none => exact absurd hle (hfirst rfl)
    | some v => exact exists_arrive target travelled unit v here
  induction rest generalizing here travelled previous with
  | nil =>
      rw [walkTo]
      split
      · exact .inl ⟨here, rfl⟩
      · next hshort =>
          split
          · next hle => exact .inl (harrive hle)
          · next hle =>
              refine .inr ⟨rfl, ?_, hshort⟩
              intro d hd
              rw [List.mem_singleton.mp hd]
              exact hle
  | cons next rest ih =>
      by_cases hle : target ≤ travelled
      · rw [walkTo_of_le hle]
        exact .inl (harrive hle)
      · rw [walkTo_cons hle, legLengths_cons, travelledTo_cons, List.scanl_cons]
        -- From here on there is a vertex behind, and nothing more to ask of the target.
        have hahead := ih (travelled + distance here next unit) (some here) next nofun
          fun _ => exists_arrive target _ unit here next
        rcases hahead with hq | ⟨herror, hpast, hshort⟩
        · exact .inl hq
        · exact .inr ⟨herror, List.forall_mem_cons.mpr ⟨hle, hpast⟩, hshort⟩

/-- A walk with nowhere to stop fails. -/
theorem walkTo_fails (rest : List (Point α))
    (hpast : ∀ d ∈ (legLengths (here :: rest) unit).scanl (· + ·) travelled, ¬ target ≤ d)
    (hshort : ¬ travelledTo unit travelled (here :: rest) ≤ target) :
    walkTo target unit travelled previous (here :: rest) = .error .noSuchVertex := by
  induction rest generalizing here travelled previous with
  | nil =>
      have hle : ¬ target ≤ travelled := hpast travelled (List.mem_singleton.mpr rfl)
      have hge : ¬ travelled ≤ target := hshort
      rw [walkTo, if_neg hge, if_neg hle]
  | cons next rest ih =>
      rw [legLengths_cons, List.scanl_cons, List.forall_mem_cons] at hpast
      rw [travelledTo_cons] at hshort
      rw [walkTo_cons hpast.1]
      exact ih hpast.2 hshort

theorem along_ends (points : List (Point α)) (target : α) (unit : LengthUnit) :
    (∃ q, along points target unit = .ok q)
      ∨ points = [] ∧ along points target unit = .error (.tooFewCoordinates "along" 1 0)
      ∨ points ≠ [] ∧ along points target unit = .error .noSuchVertex
        ∧ (∀ d ∈ (SegmentLengths.ofPath points unit).milestones, ¬ target ≤ d)
        ∧ ¬ travelledTo unit 0 points ≤ target := by
  cases points with
  | nil => exact .inr (.inl ⟨rfl, rfl⟩)
  | cons first rest =>
      rw [along]
      split
      · exact .inl ⟨first, rfl⟩
      · next hpositive =>
          have hends := @walkTo_ends _ _ target unit 0 none first rest fun _ => hpositive
          rcases hends with hq | hfails
          · exact .inl hq
          · exact .inr (.inr ⟨List.cons_ne_nil first rest, hfails⟩)

theorem along_fails {points : List (Point α)} (hpoints : points ≠ [])
    (hpast : ∀ d ∈ (SegmentLengths.ofPath points unit).milestones, ¬ target ≤ d)
    (hshort : ¬ travelledTo unit 0 points ≤ target) :
    along points target unit = .error .noSuchVertex := by
  cases points with
  | nil => exact absurd rfl hpoints
  | cons first rest =>
      rw [along, if_neg (hpast 0 (mem_scanl_first 0 _))]
      exact walkTo_fails rest hpast hshort

end

end Graticule
