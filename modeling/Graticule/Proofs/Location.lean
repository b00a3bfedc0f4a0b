import Graticule.Proofs.Milestones

/-!
# Where a distance falls

The point at a distance along a path is decided by the first milestone at or past the
distance. If it is the distance itself the point is the vertex there, and otherwise it is
as far short of that vertex as the milestone is past the distance. `pointAt?` says this
by the number of the vertex, without a walk.

A walk finds that point. After it has passed some vertices, all of them short of the
target, it has come to the next one, has travelled its milestone, and has the vertex
before behind it; so it stops at the first milestone at or past the target, if there is
one, and else at the last vertex.
-/

namespace Graticule

open OrderedScalar

variable {α : Type}

namespace SegmentLengths

section

variable [Scalar α] {s : SegmentLengths α} {target : α} {i : Nat}

/-- The number of the first milestone at or past a distance, or of all milestones if there
is none. -/
def reach (s : SegmentLengths α) (target : α) : Nat := s.milestones.findIdx (target ≤ ·)

theorem upTo_succ (h : i < s.lengths.length) : s.upTo (i + 1) = s.upTo i + s.lengths[i] := by
  rw [upTo, upTo, List.take_succ_eq_append_getElem h, List.foldl_append]
  rfl

theorem length_milestones (s : SegmentLengths α) :
    s.milestones.length = s.lengths.length + 1 :=
  List.length_scanl

theorem lt_length_milestones (h : i ≤ s.lengths.length) : i < s.milestones.length := by
  rw [length_milestones]
  omega

theorem getElem_milestones (h : i < s.milestones.length) : s.milestones[i] = s.upTo i := by
  have hi := s.getElem?_milestones i
  rw [length_milestones] at h
  rw [if_pos (by omega)] at hi
  exact (List.getElem?_eq_some_iff.mp hi).2

theorem upTo_mem_milestones (h : i ≤ s.lengths.length) : s.upTo i ∈ s.milestones := by
  have hi := lt_length_milestones h
  rw [← getElem_milestones hi]
  exact List.getElem_mem hi

theorem upTo_of_pairwise {r : α → α → Prop} (h : s.milestones.Pairwise r) {j : Nat}
    (hij : i < j) (hj : j ≤ s.lengths.length) : r (s.upTo i) (s.upTo j) := by
  have hj' := lt_length_milestones hj
  have hi' : i < s.milestones.length := Nat.lt_trans hij hj'
  rw [← getElem_milestones hi', ← getElem_milestones hj']
  exact List.pairwise_iff_getElem.mp h i j hi' hj' hij

theorem isFinite_upTo (hfinite : ∀ d ∈ s.milestones, Scalar.isFinite d = true)
    (h : i ≤ s.lengths.length) : Scalar.isFinite (s.upTo i) = true :=
  hfinite _ (upTo_mem_milestones h)

theorem not_le_of_lt_reach (h : i < s.reach target) : ¬ target ≤ s.upTo i := by
  have hi : i < s.milestones.length := Nat.lt_of_lt_of_le h List.findIdx_le_length
  rw [← getElem_milestones hi]
  exact of_decide_eq_false (List.not_of_lt_findIdx h)

theorem reach_le (h : target ≤ s.upTo i) : s.reach target ≤ i :=
  Nat.le_of_not_lt fun hlt => not_le_of_lt_reach hlt h

theorem le_upTo_reach (hi : i ≤ s.lengths.length) (h : target ≤ s.upTo i) :
    target ≤ s.upTo (s.reach target) := by
  have hreach : s.reach target < s.milestones.length :=
    List.findIdx_lt_length_of_exists ⟨_, upTo_mem_milestones hi, decide_eq_true h⟩
  rw [← getElem_milestones hreach]
  exact of_decide_eq_true (List.findIdx_getElem (p := (target ≤ ·)) (w := hreach))

end

variable [Trig α] {points : List (Point α)} {unit : LengthUnit} {target : α}

/-- The point at a distance along a path, by the first milestone at or past the distance:
the vertex there, if that is the distance, and otherwise where one comes from that vertex by
the difference, which is below zero, setting out away from the vertex before. -/
def pointAt? (points : List (Point α)) (s : SegmentLengths α) (target : α) : Option (Point α) :=
  match s.reach target with
  | 0 => points[0]?
  | k + 1 => do
    let previous ← points[k]?
    let here ← points[k + 1]?
    if s.upTo (k + 1) == target then here
    else destination here (target - s.upTo (k + 1)) (bearing here previous - 180) s.unit

variable {s : SegmentLengths α} {k : Nat} {previous here : Point α}

theorem pointAt?_at_vertex (hreach : s.reach target = k + 1)
    (hprevious : points[k]? = some previous) (hhere : points[k + 1]? = some here)
    (h : (s.upTo (k + 1) == target) = true) :
    s.pointAt? points target = some here := by
  simp [pointAt?, hreach, hprevious, hhere, h]

theorem pointAt?_before_vertex (hreach : s.reach target = k + 1)
    (hprevious : points[k]? = some previous) (hhere : points[k + 1]? = some here)
    (h : (s.upTo (k + 1) == target) = false) :
    s.pointAt? points target
      = some (destination here (target - s.upTo (k + 1)) (bearing here previous - 180) s.unit) := by
  simp [pointAt?, hreach, hprevious, hhere, h]

end SegmentLengths

/-! ## The walk by the numbers of its vertices -/

section

variable [Trig α] {points : List (Point α)} {unit : LengthUnit} {target : α} {i : Nat}

theorem getElem_legLengths (h : i + 1 < points.length)
    (hlength : i < (legLengths points unit).length) :
    (legLengths points unit)[i] = distance points[i] points[i + 1] unit := by
  simp [legLengths, legs]

theorem legLengths_take (points : List (Point α)) (unit : LengthUnit) (k : Nat) :
    legLengths (points.take (k + 1)) unit = (legLengths points unit).take k := by
  induction k generalizing points with
  | zero => cases points <;> rfl
  | succ k ih =>
      match points with
      | [] => rfl
      | [_] => rfl
      | p :: q :: rest =>
          have hahead := ih (q :: rest)
          rw [List.take_succ_cons] at hahead ⊢
          rw [List.take_succ_cons, legLengths_cons, legLengths_cons, List.take_succ_cons, hahead]

theorem drop_eq_cons_cons {β : Type} {l : List β} (h : i + 1 < l.length) :
    l.drop i = l[i] :: l[i + 1] :: l.drop (i + 2) := by
  rw [List.drop_eq_getElem_cons (by omega), List.drop_eq_getElem_cons h]

theorem getLast?_take_add_one {β : Type} {l : List β} (h : i < l.length) :
    (l.take (i + 1)).getLast? = some l[i] := by
  rw [List.take_succ_eq_append_getElem h, List.getLast?_concat]

/-- A walk passes the vertices whose milestones are short of its target. -/
theorem walkTo_eq_drop (hi : i < points.length)
    (hshort : ∀ j < i, ¬ target ≤ (SegmentLengths.ofPath points unit).upTo j) :
    walkTo target unit 0 none points
      = walkTo target unit ((SegmentLengths.ofPath points unit).upTo i)
          (points.take i).getLast? (points.drop i) := by
  induction i with
  | zero => rfl
  | succ i ih =>
      have hlength : i < (legLengths points unit).length := by
        rw [legLengths_length]
        omega
      rw [ih (by omega) fun j hj => hshort j (by omega), drop_eq_cons_cons hi,
        walkTo_cons (hshort i (by omega)), getLast?_take_add_one (by omega),
        List.drop_eq_getElem_cons hi, SegmentLengths.upTo_succ hlength,
        ← getElem_legLengths hi hlength]
      rfl

/-- A distance past every milestone is the last vertex. -/
theorem along_of_last_lt (hne : points ≠ [])
    (hpast : ∀ d ∈ (SegmentLengths.ofPath points unit).milestones, ¬ target ≤ d)
    (hlast : (SegmentLengths.ofPath points unit).upTo (points.length - 1) ≤ target) :
    along points target unit = .ok (points.getLast hne) := by
  have hpos : 0 < points.length := List.length_pos_iff.mpr hne
  have hcount : (SegmentLengths.ofPath points unit).lengths.length = points.length - 1 :=
    legLengths_length points unit
  have hwalk : along points target unit = walkTo target unit 0 none points := by
    obtain ⟨first, rest, rfl⟩ := List.exists_cons_of_ne_nil hne
    exact if_neg (hpast 0 (mem_scanl_first 0 _))
  have hdrop : points.drop (points.length - 1) = [points.getLast hne] := by
    rw [List.drop_eq_getElem_cons (by omega), List.getLast_eq_getElem,
      List.drop_eq_nil_of_le (by omega)]
  rw [hwalk, walkTo_eq_drop (i := points.length - 1) (by omega), hdrop, walkTo, if_pos hlast]
  intro j hj
  exact hpast _ (SegmentLengths.upTo_mem_milestones (by omega))

end

/-! ## The walk to a distance -/

variable [Trig α] [OrderedScalar α] {points : List (Point α)} {unit : LengthUnit}
  {target travelled : α} {s : SegmentLengths α}

theorem le_self_of_isFinite (h : Scalar.isFinite target = true) : target ≤ target :=
  (sub_beq_zero_iff.mp h).1

theorem walkTo_reached {previous : Option (Point α)} {here : Point α} {rest : List (Point α)}
    (hle : target ≤ travelled) (hfinite : Scalar.isFinite travelled = true) :
    walkTo target unit travelled previous (here :: rest)
      = arrive target unit travelled previous here := by
  by_cases hge : travelled ≤ target
  · have htarget := isFinite_of_le hfinite hge hle hfinite
    cases rest with
    | nil => rw [walkTo, if_pos hge, arrive_of_le_of_le hle hge htarget]
    | cons next rest => exact walkTo_of_le hle
  · exact walkTo_of_lt rest (lt_iff.mpr ⟨hle, hge⟩)

namespace SegmentLengths

theorem pointAt?_of_ge (points : List (Point α)) (hle : target ≤ s.upTo (s.reach target))
    (hge : s.upTo (s.reach target) ≤ target) (h : s.reach target < points.length) :
    s.pointAt? points target = some points[s.reach target] := by
  generalize hreach : s.reach target = k at hle hge h
  cases k with
  | zero =>
      rw [pointAt?, hreach]
      exact List.getElem?_eq_getElem h
  | succ k =>
      exact pointAt?_at_vertex hreach (List.getElem?_eq_getElem (by omega))
        (List.getElem?_eq_getElem h) (beq_iff.mpr ⟨hge, hle⟩)

theorem pointAt?_of_lt (hzero : 0 ≤ target) (hlt : target < s.upTo (s.reach target))
    (h : s.reach target < points.length) :
    ∃ previous, (points.take (s.reach target)).getLast? = some previous
      ∧ s.pointAt? points target = some (destination points[s.reach target]
          (target - s.upTo (s.reach target)) (bearing points[s.reach target] previous - 180)
          s.unit) := by
  generalize hreach : s.reach target = k at hlt h
  cases k with
  | zero => exact absurd hlt (not_lt_of_le hzero)
  | succ k =>
      have hprevious : k < points.length := by omega
      refine ⟨points[k], getLast?_take_add_one hprevious, ?_⟩
      apply pointAt?_before_vertex hreach (List.getElem?_eq_getElem hprevious)
        (List.getElem?_eq_getElem h)
      apply Bool.eq_false_iff.mpr
      intro heq
      exact not_le_of_lt hlt (beq_iff.mp heq).1

/-- Arriving from the first milestone at or past its target, a walk is where the target
falls. -/
theorem arrive_eq_pointAt (points : List (Point α)) (hzero : 0 ≤ target)
    (hle : target ≤ s.upTo (s.reach target))
    (hfinite : Scalar.isFinite (s.upTo (s.reach target)) = true)
    (h : s.reach target < points.length) :
    ∃ q, s.pointAt? points target = some q
      ∧ arrive target s.unit (s.upTo (s.reach target)) (points.take (s.reach target)).getLast?
          points[s.reach target] = .ok q := by
  by_cases hge : s.upTo (s.reach target) ≤ target
  · have htarget := isFinite_of_le hfinite hge hle hfinite
    exact ⟨_, pointAt?_of_ge points hle hge h, arrive_of_le_of_le hle hge htarget⟩
  · have hlt : target < s.upTo (s.reach target) := lt_iff.mpr ⟨hle, hge⟩
    obtain ⟨previous, hprevious, hpoint⟩ := pointAt?_of_lt hzero hlt h
    refine ⟨_, hpoint, ?_⟩
    rw [arrive_of_lt hlt, hprevious]
    rfl

end SegmentLengths

/-! ## Points along a path -/

theorem along_eq_pointAt (hne : points ≠ []) (hzero : 0 ≤ target)
    (hfinite : ∀ d ∈ (SegmentLengths.ofPath points unit).milestones, Scalar.isFinite d = true)
    (hlast : target ≤ (SegmentLengths.ofPath points unit).upTo (points.length - 1)) :
    ∃ q, (SegmentLengths.ofPath points unit).pointAt? points target = some q
      ∧ along points target unit = .ok q := by
  have hpos : 0 < points.length := List.length_pos_iff.mpr hne
  have hcount : (SegmentLengths.ofPath points unit).lengths.length = points.length - 1 :=
    legLengths_length points unit
  have hreach := SegmentLengths.reach_le hlast
  have hle := SegmentLengths.le_upTo_reach (by omega) hlast
  have hfinite' := SegmentLengths.isFinite_upTo hfinite
    (Nat.le_trans hreach (Nat.le_of_eq hcount.symm))
  obtain ⟨q, hq, harrive⟩ := SegmentLengths.arrive_eq_pointAt points hzero hle hfinite' (by omega)
  refine ⟨q, hq, ?_⟩
  rw [along_eq_walkTo hne hzero,
    walkTo_eq_drop (by omega) fun j hj => SegmentLengths.not_le_of_lt_reach hj,
    List.drop_eq_getElem_cons (by omega), walkTo_reached hle hfinite']
  exact harrive

/-! ## Milestones in order -/

namespace SegmentLengths

variable {i j k : Nat}

theorem upTo_le_upTo (hsorted : s.milestones.Pairwise (· ≤ ·))
    (hfinite : ∀ d ∈ s.milestones, Scalar.isFinite d = true) (hij : i ≤ j)
    (hj : j ≤ s.lengths.length) : s.upTo i ≤ s.upTo j := by
  rcases Nat.eq_or_lt_of_le hij with rfl | hlt
  · exact le_self_of_isFinite (isFinite_upTo hfinite hj)
  · exact upTo_of_pairwise hsorted hlt hj

/-- A distance that is a milestone is reached at the first vertex that has it. -/
theorem reach_milestone (hsorted : s.milestones.Pairwise (· ≤ ·))
    (hfinite : ∀ d ∈ s.milestones, Scalar.isFinite d = true) (hk : k ≤ s.lengths.length)
    (hle : target ≤ s.upTo k) (hge : s.upTo k ≤ target) :
    s.milestones.findIdx (· == s.upTo k) = s.reach target
      ∧ s.upTo (s.reach target) ≤ target := by
  have hreach := reach_le hle
  have hreached : target ≤ s.upTo (s.reach target) := le_upTo_reach hk hle
  have hback : s.upTo (s.reach target) ≤ s.upTo k := upTo_le_upTo hsorted hfinite hreach hk
  have hlength : s.reach target < s.milestones.length :=
    lt_length_milestones (Nat.le_trans hreach hk)
  refine ⟨(List.findIdx_eq hlength).mpr ⟨?_, ?_⟩, le_trans hback hge⟩
  · rw [getElem_milestones]
    exact beq_iff.mpr ⟨hback, le_trans hge hreached⟩
  · intro i hi
    rw [getElem_milestones]
    refine Bool.eq_false_iff.mpr fun heq => not_le_of_lt_reach hi ?_
    exact le_trans hle (beq_iff.mp heq).2

end SegmentLengths

/-- A distance that is a milestone falls on the first vertex that has it. -/
theorem along_milestone {k : Nat} (hk : k < points.length)
    (hsorted : (SegmentLengths.ofPath points unit).milestones.Pairwise (· ≤ ·))
    (hfinite : ∀ d ∈ (SegmentLengths.ofPath points unit).milestones, Scalar.isFinite d = true)
    (hle : target ≤ (SegmentLengths.ofPath points unit).upTo k)
    (hge : (SegmentLengths.ofPath points unit).upTo k ≤ target) :
    ∃ v, points[(SegmentLengths.ofPath points unit).milestones.findIdx
          (· == (SegmentLengths.ofPath points unit).upTo k)]? = some v
      ∧ along points target unit = .ok v := by
  have hcount : (SegmentLengths.ofPath points unit).lengths.length = points.length - 1 :=
    legLengths_length points unit
  have hne : points ≠ [] := List.ne_nil_of_length_pos (by omega)
  obtain ⟨hfirst, hback⟩ := SegmentLengths.reach_milestone hsorted hfinite (by omega) hle hge
  have hreach := SegmentLengths.reach_le hle
  have hzero : 0 ≤ target :=
    le_trans (SegmentLengths.upTo_le_upTo hsorted hfinite (Nat.zero_le k) (by omega)) hge
  have hlast := le_trans hle
    (SegmentLengths.upTo_le_upTo hsorted hfinite (j := points.length - 1) (by omega) (by omega))
  obtain ⟨q, hq, halong⟩ := along_eq_pointAt hne hzero hfinite hlast
  have hpoint := SegmentLengths.pointAt?_of_ge points
    (SegmentLengths.le_upTo_reach (by omega) hle) hback (by omega)
  rw [hpoint] at hq
  refine ⟨q, ?_, halong⟩
  rw [hfirst, ← hq]
  exact List.getElem?_eq_getElem _

/-- Every distance that is a number falls somewhere along a path. -/
theorem exists_along (hne : points ≠ [])
    (hsorted : (SegmentLengths.ofPath points unit).milestones.Pairwise (· ≤ ·))
    (hfinite : ∀ d ∈ (SegmentLengths.ofPath points unit).milestones, Scalar.isFinite d = true)
    (hnumber : target ≤ target) :
    ∃ q, along points target unit = .ok q ∧ (target ≤ 0 → points.head? = some q)
      ∧ ((SegmentLengths.ofPath points unit).upTo (points.length - 1) < target →
        points.getLast? = some q)
      ∧ (0 < target → target ≤ (SegmentLengths.ofPath points unit).upTo (points.length - 1) →
        (SegmentLengths.ofPath points unit).pointAt? points target = some q) := by
  have hcount : (SegmentLengths.ofPath points unit).lengths.length = points.length - 1 :=
    legLengths_length points unit
  have hbefore : ∀ j ≤ points.length - 1, (SegmentLengths.ofPath points unit).upTo j
      ≤ (SegmentLengths.ofPath points unit).upTo (points.length - 1) := by
    intro j hj
    exact SegmentLengths.upTo_le_upTo hsorted hfinite hj (by omega)
  have hlastZero := hbefore 0 (Nat.zero_le _)
  by_cases hzero : target ≤ 0
  · obtain ⟨first, rest, rfl⟩ := List.exists_cons_of_ne_nil hne
    refine ⟨first, if_pos hzero, fun _ => rfl, ?_, ?_⟩
    · intro hlast
      exact absurd (le_trans hzero hlastZero) (not_le_of_lt hlast)
    · intro hpos
      exact absurd hzero (not_le_of_lt hpos)
  · have hpos : 0 ≤ target := le_of_not_le hnumber (le_refl_left hlastZero) hzero
    by_cases hlast : target ≤ (SegmentLengths.ofPath points unit).upTo (points.length - 1)
    · obtain ⟨q, hq, halong⟩ := along_eq_pointAt hne hpos hfinite hlast
      refine ⟨q, halong, fun h => absurd h hzero, ?_, fun _ _ => hq⟩
      intro hlt
      exact absurd hlast (not_le_of_lt hlt)
    · have hpast : ∀ d ∈ (SegmentLengths.ofPath points unit).milestones, ¬ target ≤ d := by
        intro d hd hle
        obtain ⟨j, hj, rfl⟩ := List.mem_iff_getElem.mp hd
        rw [SegmentLengths.length_milestones] at hj
        rw [SegmentLengths.getElem_milestones] at hle
        exact hlast (le_trans hle (hbefore j (by omega)))
      refine ⟨_, along_of_last_lt hne hpast ?_, fun h => absurd h hzero, fun _ => ?_,
        fun _ h => absurd h hlast⟩
      · exact le_of_not_le hnumber (le_refl_right hlastZero) hlast
      · exact List.getLast?_eq_some_getLast hne

end Graticule
