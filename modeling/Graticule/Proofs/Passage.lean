import Graticule.Proofs.Location
import Graticule.Proofs.SliceSize

/-!
# The vertices a slice passes

With milestones that increase, a slice is the point at its start, the vertices whose
milestones are between its start and its stop, and the point at its stop, or the last
vertex if the stop lies beyond.

The walk that cuts it goes from vertex to vertex, and what it has taken when it comes to
one is told by the milestones before: nothing, if all of them are short of the start, and
else the point at the start and the vertices past it. A step keeps this in one of three
ways. Short of the start nothing is taken. At a vertex past the start the point at the
start is taken, if it has not been yet, and the vertex after it. At a vertex exactly at
the start the vertex is that point, and is not taken again.
-/

namespace Graticule

open OrderedScalar

variable {α : Type}

namespace SegmentLengths

variable [Scalar α] {points : List (Point α)} {s : SegmentLengths α} {start : α} {i : Nat}

/-- The vertices whose milestones are between two distances, in order. -/
def between (points : List (Point α)) (s : SegmentLengths α) (lo hi : α) : List (Point α) :=
  ((points.zip s.milestones).filter fun v => lo < v.2 ∧ v.2 < hi).map Prod.fst

/-- The vertices past a distance, of those that come before a given one. -/
def passed (points : List (Point α)) (s : SegmentLengths α) (start : α) (i : Nat) :
    List (Point α) :=
  (((points.zip s.milestones).take i).filter fun v => start < v.2).map Prod.fst

/-- What a slice has taken when it comes to a vertex, from the point at its start on. -/
def taken (points : List (Point α)) (s : SegmentLengths α) (start : α) (p : Point α) (i : Nat) :
    List (Point α) :=
  if i ≤ s.reach start then [] else p :: s.passed points start i

theorem passed_succ (hi : i < points.length) (hcount : i ≤ s.lengths.length) :
    s.passed points start (i + 1)
      = s.passed points start i ++ if start < s.upTo i then [points[i]] else [] := by
  have hmilestone : i < s.milestones.length := lt_length_milestones hcount
  have hzip : i < (points.zip s.milestones).length := by
    rw [List.length_zip]
    omega
  rw [passed, List.take_succ_eq_append_getElem hzip, List.filter_append, List.map_append,
    List.getElem_zip, getElem_milestones]
  by_cases hpast : start < s.upTo i
  · simp [passed, hpast]
  · simp [passed, hpast]

theorem passed_of_le_reach [OrderedScalar α] (hi : i ≤ s.reach start) (hlength : i ≤ points.length)
    (hcount : s.lengths.length = points.length - 1) : s.passed points start i = [] := by
  induction i with
  | zero => rfl
  | succ i ih =>
      have hpast : ¬ start < s.upTo i := fun hlt => not_le_of_lt_reach hi (le_of_lt hlt)
      rw [passed_succ (by omega) (by omega), ih (by omega) (by omega), if_neg hpast]
      rfl

theorem lt_upTo_of_reach_lt [OrderedScalar α] (hsorted : s.milestones.Pairwise (· < ·))
    (hlt : s.reach start < i) (hi : i ≤ s.lengths.length)
    (hreached : start ≤ s.upTo (s.reach start)) : start < s.upTo i :=
  lt_of_le_of_lt hreached (upTo_of_pairwise hsorted hlt hi)

end SegmentLengths

/-! ## The steps of a slice -/

variable [Trig α] [OrderedScalar α] {points : List (Point α)} {s : SegmentLengths α}
  {start stop : α} {p : Point α} {i : Nat}

/-- Past its start a slice has the point there. -/
theorem cut_taken (hcount : s.lengths.length = points.length - 1)
    (hpoint : s.pointAt? points start = some p) (hzero : 0 ≤ start) (hi : i < points.length)
    (hpast : start < s.upTo i) (rest : List (Point α)) (lengths : List α) :
    cut start stop s.unit (s.taken points start p i).reverse (s.upTo i) (points.take i).getLast?
        (points[i] :: rest) lengths
      = cut start stop s.unit (p :: s.passed points start i).reverse (s.upTo i)
          (points.take i).getLast? (points[i] :: rest) lengths := by
  have hreach := SegmentLengths.reach_le (le_of_lt hpast)
  rcases Nat.eq_or_lt_of_le hreach with rfl | hlt
  · obtain ⟨previous, hprevious, hpoint'⟩ := SegmentLengths.pointAt?_of_lt hzero hpast hi
    obtain rfl := Option.some.inj (hpoint'.symm.trans hpoint)
    rw [SegmentLengths.taken, if_pos (Nat.le_refl _), List.reverse_nil, hprevious,
      cut_begin lengths hpast,
      SegmentLengths.passed_of_le_reach (Nat.le_refl _) (by omega) hcount]
    rfl
  · rw [SegmentLengths.taken, if_neg (by omega)]

theorem cut_step (hcount : s.lengths.length = points.length - 1)
    (hsorted : s.milestones.Pairwise (· < ·)) (hpoint : s.pointAt? points start = some p)
    (hzero : 0 ≤ start) (hreached : start ≤ s.upTo (s.reach start)) (hi : i + 1 < points.length)
    (hstop : ¬ stop ≤ s.upTo i) :
    cut start stop s.unit (s.taken points start p i).reverse (s.upTo i) (points.take i).getLast?
        (points.drop i) (s.lengths.drop i)
      = cut start stop s.unit (s.taken points start p (i + 1)).reverse (s.upTo (i + 1))
          (points.take (i + 1)).getLast? (points.drop (i + 1)) (s.lengths.drop (i + 1)) := by
  have hlength : i < s.lengths.length := by omega
  rw [drop_eq_cons_cons hi, List.drop_eq_getElem_cons hi, List.drop_eq_getElem_cons hlength,
    getLast?_take_add_one (by omega), SegmentLengths.upTo_succ hlength]
  by_cases hpast : start < s.upTo i
  · have hreach := SegmentLengths.reach_le (le_of_lt hpast)
    rw [cut_taken hcount hpoint hzero (by omega) hpast, cut_cons (by simp) hstop,
      if_pos (le_of_lt hpast), SegmentLengths.taken, if_neg (by omega),
      SegmentLengths.passed_succ (by omega) (by omega), if_pos hpast]
    simp
  · have hle : i ≤ s.reach start := Nat.le_of_not_lt fun hlt =>
      hpast (SegmentLengths.lt_upTo_of_reach_lt hsorted hlt (by omega) hreached)
    have hnothing : s.taken points start p i = [] := if_pos hle
    rw [hnothing, List.reverse_nil, cut_cons (fun h => hpast h.1) hstop]
    by_cases hstart : start ≤ s.upTo i
    · -- The vertex is the point at the start.
      obtain rfl : i = s.reach start := by
        have hge := SegmentLengths.reach_le hstart
        omega
      have hpoint' := SegmentLengths.pointAt?_of_ge points hstart
        (ge_of_le_of_not_lt hstart hpast) (by omega)
      obtain rfl := Option.some.inj (hpoint'.symm.trans hpoint)
      rw [if_pos hstart, SegmentLengths.taken, if_neg (by omega),
        SegmentLengths.passed_succ (by omega) (by omega), if_neg hpast,
        SegmentLengths.passed_of_le_reach (Nat.le_refl _) (by omega) hcount]
      rfl
    · have hshort : i ≠ s.reach start := by
        rintro rfl
        exact hstart hreached
      rw [if_neg hstart, SegmentLengths.taken, if_pos (by omega)]
      rfl

theorem cut_eq_drop (hcount : s.lengths.length = points.length - 1)
    (hsorted : s.milestones.Pairwise (· < ·)) (hpoint : s.pointAt? points start = some p)
    (hzero : 0 ≤ start) (hreached : start ≤ s.upTo (s.reach start)) (hi : i < points.length)
    (hstop : ∀ j < i, ¬ stop ≤ s.upTo j) :
    cut start stop s.unit [] 0 none points s.lengths
      = cut start stop s.unit (s.taken points start p i).reverse (s.upTo i)
          (points.take i).getLast? (points.drop i) (s.lengths.drop i) := by
  induction i with
  | zero =>
      have hnothing : s.taken points start p 0 = [] := if_pos (Nat.zero_le _)
      rw [hnothing]
      rfl
  | succ i ih =>
      rw [ih (by omega) fun j hj => hstop j (by omega)]
      exact cut_step hcount hsorted hpoint hzero hreached hi (hstop i (by omega))

/-! ## The end of a slice -/

namespace SegmentLengths

theorem lesser_of_le (h : start ≤ stop) : Scalar.lesser start stop = start := by
  rw [Scalar.lesser, if_neg (by simp [isNaN_eq_false_iff.mpr (le_refl_left h)]),
    if_neg (not_lt_of_le h)]

theorem lesser_of_lt (h : stop < start) : Scalar.lesser start stop = stop := by
  rw [Scalar.lesser, if_neg (by simp [isNaN_eq_false_iff.mpr (le_refl_right (le_of_lt h))]),
    if_pos h]

theorem reach_upTo (hsorted : s.milestones.Pairwise (· < ·))
    (hfinite : ∀ d ∈ s.milestones, Scalar.isFinite d = true) (hi : i ≤ s.lengths.length) :
    s.reach (s.upTo i) = i := by
  have hself := le_self_of_isFinite (isFinite_upTo hfinite hi)
  refine Nat.le_antisymm (reach_le hself) (Nat.le_of_not_lt fun hlt => ?_)
  have hloop : s.upTo i < s.upTo i := lt_upTo_of_reach_lt hsorted hlt hi (le_upTo_reach hi hself)
  exact not_lt_of_le hself hloop

/-- The vertices between two distances are those past the first that come before the second
is reached. -/
theorem between_eq_passed (hsorted : s.milestones.Pairwise (· < ·))
    (hnumber : ∀ d ∈ s.milestones, d ≤ d) (hreached : stop ≤ s.upTo (s.reach stop)) :
    s.between points start stop = s.passed points start (s.reach stop) := by
  have hbefore : ((points.zip s.milestones).take (s.reach stop)).filter
        (fun v => start < v.2 ∧ v.2 < stop)
      = ((points.zip s.milestones).take (s.reach stop)).filter (fun v => start < v.2) := by
    refine List.filter_congr ?_
    intro v hv
    obtain ⟨j, hj, rfl⟩ := List.mem_take_iff_getElem.mp hv
    rw [List.length_zip, length_milestones] at hj
    have hlt : s.upTo j < stop := by
      refine lt_of_not_le ?_ ?_ (not_le_of_lt_reach (by omega))
      · exact isNaN_eq_false_iff.mpr (hnumber _ (upTo_mem_milestones (by omega)))
      · exact isNaN_eq_false_iff.mpr (le_refl_left hreached)
    rw [List.getElem_zip, getElem_milestones]
    simp [hlt]
  have hafter : ((points.zip s.milestones).drop (s.reach stop)).filter
        (fun v => start < v.2 ∧ v.2 < stop) = [] := by
    refine List.filter_eq_nil_iff.mpr ?_
    intro v hv
    obtain ⟨j, hj, rfl⟩ := List.mem_drop_iff_getElem.mp hv
    rw [List.length_zip, length_milestones] at hj
    have hge : stop ≤ s.upTo (s.reach stop + j) := by
      cases j with
      | zero => exact hreached
      | succ j => exact le_of_lt (lt_upTo_of_reach_lt hsorted (by omega) (by omega) hreached)
    rw [List.getElem_zip, getElem_milestones]
    simp [not_lt_of_le hge]
  rw [between, passed, ← hbefore, ← List.append_nil (List.filter _ (List.take _ _)), ← hafter,
    ← List.filter_append, List.take_append_drop]

end SegmentLengths

/-- A slice whose stop is on the path ends where the stop falls. -/
theorem cut_of_stop_le (hlength : 2 ≤ points.length)
    (hcount : s.lengths.length = points.length - 1)
    (hfinite : ∀ d ∈ s.milestones, Scalar.isFinite d = true)
    (hsorted : s.milestones.Pairwise (· < ·)) (hpoint : s.pointAt? points start = some p)
    (hzero : 0 ≤ start) (hreached : start ≤ s.upTo (s.reach start)) (hstop : start < stop)
    (hlast : stop ≤ s.upTo (points.length - 1)) :
    ∃ q, s.pointAt? points stop = some q
      ∧ cut start stop s.unit [] 0 none points s.lengths
        = .ok (p :: (s.between points start stop ++ [q])) := by
  have hreach : s.reach stop ≤ points.length - 1 := SegmentLengths.reach_le hlast
  have hle : stop ≤ s.upTo (s.reach stop) := SegmentLengths.le_upTo_reach (by omega) hlast
  have hpast : start < s.upTo (s.reach stop) := lt_of_lt_of_le hstop hle
  obtain ⟨q, hq, harrive⟩ := SegmentLengths.arrive_eq_pointAt points
    (le_trans hzero (le_of_lt hstop)) hle (SegmentLengths.isFinite_upTo hfinite (by omega))
    (by omega)
  refine ⟨q, hq, ?_⟩
  rw [cut_eq_drop hcount hsorted hpoint hzero hreached (i := s.reach stop) (by omega)
      fun j hj => SegmentLengths.not_le_of_lt_reach hj,
    List.drop_eq_getElem_cons (by omega), cut_taken hcount hpoint hzero (by omega) hpast,
    cut_arrive (by simp) hle harrive, List.reverse_reverse,
    SegmentLengths.between_eq_passed hsorted (fun d hd => le_self_of_isFinite (hfinite d hd)) hle]
  rfl

/-- A slice whose stop is beyond the path ends at the last vertex. -/
theorem cut_of_last_lt (hlength : 2 ≤ points.length)
    (hcount : s.lengths.length = points.length - 1)
    (hfinite : ∀ d ∈ s.milestones, Scalar.isFinite d = true)
    (hsorted : s.milestones.Pairwise (· < ·)) (hpoint : s.pointAt? points start = some p)
    (hzero : 0 ≤ start) (hreached : start ≤ s.upTo (s.reach start))
    (hbelow : start < s.upTo (points.length - 1)) (hlast : s.upTo (points.length - 1) < stop) :
    ∃ q, s.pointAt? points (s.upTo (points.length - 1)) = some q
      ∧ cut start stop s.unit [] 0 none points s.lengths
        = .ok (p :: (s.between points start (s.upTo (points.length - 1)) ++ [q])) := by
  have hreach : s.reach (s.upTo (points.length - 1)) = points.length - 1 :=
    SegmentLengths.reach_upTo hsorted hfinite (by omega)
  have hself := le_self_of_isFinite
    (SegmentLengths.isFinite_upTo hfinite (i := points.length - 1) (by omega))
  have hle : s.upTo (points.length - 1) ≤ s.upTo (s.reach (s.upTo (points.length - 1))) := by
    rwa [hreach]
  have hge : s.upTo (s.reach (s.upTo (points.length - 1))) ≤ s.upTo (points.length - 1) := by
    rwa [hreach]
  refine ⟨_, SegmentLengths.pointAt?_of_ge points hle hge (by omega), ?_⟩
  have hahead : ∀ j < points.length - 1, ¬ stop ≤ s.upTo j := by
    intro j hj hstop
    refine SegmentLengths.not_le_of_lt_reach ?_ (le_trans (le_of_lt hlast) hstop)
    rwa [hreach]
  have hdrop : points.drop (points.length - 1) = [points[points.length - 1]] := by
    rw [List.drop_eq_getElem_cons (by omega), List.drop_eq_nil_of_le (by omega)]
  rw [cut_eq_drop hcount hsorted hpoint hzero hreached (by omega) hahead, hdrop,
    cut_taken hcount hpoint hzero (by omega) hbelow,
    cut_last (by simp) (not_le_of_lt hlast) (le_of_lt hbelow), List.reverse_reverse,
    SegmentLengths.between_eq_passed hsorted (fun d hd => le_self_of_isFinite (hfinite d hd)) hle]
  simp only [hreach]
  rfl

/-- A slice is the point at its start, the vertices between, and the point at its stop or at
the end of the path. -/
theorem sliceWith_eq_between (hlength : 2 ≤ points.length)
    (hcount : s.lengths.length = points.length - 1)
    (hfinite : ∀ d ∈ s.milestones, Scalar.isFinite d = true)
    (hsorted : s.milestones.Pairwise (· < ·)) (hzero : 0 ≤ start) (hstop : start < stop)
    (hbelow : start < s.upTo (points.length - 1)) (htotal : ¬ s.total ≤ start) :
    ∃ p q, s.pointAt? points start = some p
      ∧ s.pointAt? points (Scalar.lesser stop (s.upTo (points.length - 1))) = some q
      ∧ sliceWith points start stop s = .ok ⟨p :: (s.between points start
          (Scalar.lesser stop (s.upTo (points.length - 1))) ++ [q]), none⟩ := by
  have hreach : s.reach start ≤ points.length - 1 := SegmentLengths.reach_le (le_of_lt hbelow)
  have hreached := SegmentLengths.le_upTo_reach (by omega) (le_of_lt hbelow)
  obtain ⟨p, hpoint, -⟩ := SegmentLengths.arrive_eq_pointAt points hzero hreached
    (SegmentLengths.isFinite_upTo hfinite (by omega)) (by omega)
  by_cases hlast : s.upTo (points.length - 1) < stop
  · obtain ⟨q, hq, hcut⟩ := cut_of_last_lt hlength hcount hfinite hsorted hpoint hzero hreached
      hbelow hlast
    rw [SegmentLengths.lesser_of_lt hlast]
    exact ⟨p, q, hpoint, hq, sliceWith_eq_cut hlength hcount hzero hstop htotal hcut⟩
  · have hle : stop ≤ s.upTo (points.length - 1) := by
      rcases le_total (le_refl_right (le_of_lt hstop)) (le_refl_right (le_of_lt hbelow))
        with hle | hge
      · exact hle
      · exact ge_of_le_of_not_lt hge hlast
    obtain ⟨q, hq, hcut⟩ := cut_of_stop_le hlength hcount hfinite hsorted hpoint hzero hreached
      hstop hle
    rw [SegmentLengths.lesser_of_le hle]
    exact ⟨p, q, hpoint, hq, sliceWith_eq_cut hlength hcount hzero hstop htotal hcut⟩

end Graticule
