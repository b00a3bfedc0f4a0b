import Graticule.Proofs.Binary64.Between
import Graticule.Proofs.Passage

/-!
# Points at distances along paths of doubles

With doubles nothing has to be asked of a path but what its milestones show: that they
are finite, and that they do not decrease, or for a slice that they increase. The lengths
themselves are then finite as well, but nothing depends on it.

The length of the first part of a path is its milestone, since both add the same lengths
in the same order; only the zero they start from may differ.
-/

namespace Graticule

namespace Angles

open Binary64

/-- The first part of a path is as long as its milestone says. -/
theorem pathLength_take (f : Angles) (points : List (Point Float)) (unit : LengthUnit) {k : Nat}
    (hnumber : (@SegmentLengths.ofPath Float f.trig points unit).upTo k
      ≤ (@SegmentLengths.ofPath Float f.trig points unit).upTo k) :
    @pathLength Float f.trig (points.take (k + 1)) unit
        ≤ (@SegmentLengths.ofPath Float f.trig points unit).upTo k
      ∧ (@SegmentLengths.ofPath Float f.trig points unit).upTo k
        ≤ @pathLength Float f.trig (points.take (k + 1)) unit := by
  have hlength : @pathLength Float f.trig (points.take (k + 1)) unit
      = Scalar.total ((@legLengths Float f.trig points unit).take k) :=
    congrArg Scalar.total (@legLengths_take Float f.trig points unit k)
  rw [hlength]
  rcases total_eq_or ((@legLengths Float f.trig points unit).take k) with hsame | ⟨hneg, hpos⟩
  · rw [hsame]
    exact ⟨hnumber, hnumber⟩
  · have hupTo : (@SegmentLengths.ofPath Float f.trig points unit).upTo k = 0 := hpos
    rw [hneg, hupTo]
    exact ⟨OrderedScalar.neg_zero_le, OrderedScalar.zero_le_neg⟩

/-- Along a path of doubles whose milestones are finite and do not decrease, a distance that
is a number falls on the first vertex if it is not above zero, on the last if it is past the
last milestone, and else where the first milestone at or past it says. The length of the
part of the path up to a vertex falls on the first vertex with the milestone of that one. -/
theorem along_finds_milestone (f : Angles) (points : List (Point Float)) (unit : LengthUnit)
    (hpoints : points ≠ [])
    (hfinite : ∀ d ∈ (@SegmentLengths.ofPath Float f.trig points unit).milestones,
      Scalar.isFinite d = true)
    (hsorted : (@SegmentLengths.ofPath Float f.trig points unit).milestones.Pairwise (· ≤ ·)) :
    (∀ target, Scalar.isNaN target = false →
      ∃ q, @along Float f.trig points target unit = .ok q
        ∧ (target ≤ 0 → points.head? = some q)
        ∧ ((@SegmentLengths.ofPath Float f.trig points unit).upTo (points.length - 1) < target →
          points.getLast? = some q)
        ∧ (0 < target →
          target ≤ (@SegmentLengths.ofPath Float f.trig points unit).upTo (points.length - 1) →
          @SegmentLengths.pointAt? Float f.trig points
            (@SegmentLengths.ofPath Float f.trig points unit) target = some q))
    ∧ ∀ k < points.length, ∃ v,
        points[(@SegmentLengths.ofPath Float f.trig points unit).milestones.findIdx
          (· == (@SegmentLengths.ofPath Float f.trig points unit).upTo k)]? = some v
        ∧ @along Float f.trig points (@pathLength Float f.trig (points.take (k + 1)) unit) unit
          = .ok v := by
  have hpos : 0 < points.length := List.length_pos_iff.mpr hpoints
  have hcount : (@SegmentLengths.ofPath Float f.trig points unit).lengths.length
      = points.length - 1 := @legLengths_length Float f.trig points unit
  constructor
  · intro target hnumber
    exact @exists_along Float f.trig _ points unit target hpoints hsorted hfinite
      (OrderedScalar.isNaN_eq_false_iff.mp hnumber)
  · intro k hk
    have hnumber := @le_self_of_isFinite Float f.trig _ _
      (SegmentLengths.isFinite_upTo hfinite (i := k) (by omega))
    obtain ⟨hle, hge⟩ := pathLength_take f points unit hnumber
    exact @along_milestone Float f.trig _ points unit _ k hk hsorted hfinite hle hge

/-- The second vertex is where the first one is, so the path is as long up to either. The
third is one degree north of it, and 100 kilometers are a tenth of a degree short of there. -/
theorem along_finds_milestone_of_repeated_vertex :
    let points : List (Point Float) := [⟨0, 0, none⟩, ⟨0, 0, some 5⟩, ⟨0, 1, none⟩]
    let s := @SegmentLengths.ofPath Float smallAngles.trig points .kilometers
    points ≠ [] ∧ (∀ d ∈ s.milestones, Scalar.isFinite d = true)
      ∧ s.milestones.Pairwise (· ≤ ·) ∧ Scalar.isNaN (100 : Float) = false
      ∧ (0 : Float) < 100 ∧ 100 ≤ s.upTo 2
      ∧ @along Float smallAngles.trig points 100 .kilometers
        = .ok ⟨0, 0.8990393740023808, none⟩
      ∧ @SegmentLengths.pointAt? Float smallAngles.trig points s 100
        = some ⟨0, 0.8990393740023808, none⟩
      ∧ @along Float smallAngles.trig points
          (@pathLength Float smallAngles.trig (points.take 2) .kilometers) .kilometers
        = .ok ⟨0, 0, none⟩ := by
  intro points s
  have hfinite : ∀ d ∈ s.milestones, Scalar.isFinite d = true := by decide +kernel
  have hsorted : s.milestones.Pairwise (· ≤ ·) := by decide +kernel
  have hlast : (100 : Float) ≤ s.upTo 2 := by decide +kernel
  obtain ⟨halong, hvertices⟩ := along_finds_milestone smallAngles points .kilometers
    (by simp [points]) hfinite hsorted
  obtain ⟨q, hq, -, -, hpoint⟩ := halong 100 (by decide +kernel)
  obtain ⟨v, hv, hvertex⟩ := hvertices 1 (by decide)
  have hbetween : @SegmentLengths.pointAt? Float smallAngles.trig points s 100
      = some ⟨0, 0.8990393740023808, none⟩ := by
    have hplace : @destination Float smallAngles.trig ⟨0, 1, none⟩ (100 - s.upTo 2)
        (@bearing Float smallAngles.trig ⟨0, 1, none⟩ ⟨0, 0, some 5⟩ - 180) s.unit
          = ⟨0, 0.8990393740023808, none⟩ :=
      point_eq_of_toBits_eq (by decide +kernel) (by decide +kernel) rfl
    rw [← hplace]
    exact @SegmentLengths.pointAt?_before_vertex Float smallAngles.trig points 100 s 1 _ _
      (by decide +kernel) rfl rfl (by decide +kernel)
  have hfirst : s.milestones.findIdx (· == s.upTo 1) = 0 := by decide +kernel
  have hv' : points[s.milestones.findIdx (· == s.upTo 1)]? = some v := hv
  rw [hfirst] at hv'
  obtain rfl := Option.some.inj hv'
  obtain rfl := Option.some.inj ((hpoint (by decide +kernel) hlast).symm.trans hbetween)
  exact ⟨by simp [points], hfinite, hsorted, by decide +kernel, by decide +kernel, hlast, hq,
    hbetween, hvertex⟩

/-- With milestones of doubles that are finite and increase, a slice from a distance that is
on the path is the point there, the vertices whose milestones are between the start and the
stop, in order and each once, and the point at the stop, or at the end of the path if that
comes first. -/
theorem sliceWith_passes (f : Angles) (points : List (Point Float)) (s : SegmentLengths Float)
    {start stop : Float} (hlength : 2 ≤ points.length)
    (hcount : s.lengths.length = points.length - 1)
    (hfinite : ∀ d ∈ s.milestones, Scalar.isFinite d = true)
    (hsorted : s.milestones.Pairwise (· < ·)) (hstart : 0 ≤ start) (hstop : start < stop)
    (hbelow : start < s.upTo (points.length - 1)) :
    ∃ p q, @SegmentLengths.pointAt? Float f.trig points s start = some p
      ∧ @SegmentLengths.pointAt? Float f.trig points s
          (Scalar.lesser stop (s.upTo (points.length - 1))) = some q
      ∧ @sliceWith Float f.trig points start stop s
        = .ok ⟨p :: (s.between points start (Scalar.lesser stop (s.upTo (points.length - 1)))
            ++ [q]), none⟩ := by
  have hupTo : s.upTo (points.length - 1) = s.lengths.foldl (· + ·) 0 := by
    rw [SegmentLengths.upTo, ← hcount, List.take_length]
  have htotal : ¬ s.total ≤ start := by
    rcases total_eq_or s.lengths with hsame | ⟨-, hzero⟩
    · rw [SegmentLengths.total, hsame, ← hupTo]
      exact OrderedScalar.not_le_of_lt hbelow
    · rw [hupTo, hzero] at hbelow
      exact absurd hstart (OrderedScalar.not_le_of_lt hbelow)
  exact @sliceWith_eq_between Float f.trig _ points s start stop hlength hcount hfinite hsorted
    hstart hstop hbelow htotal

/-- The start is the second vertex, and the stop is on the last segment, a kilometer short of
its end. -/
theorem sliceWith_passes_of_four_vertices :
    let points : List (Point Float) :=
      [⟨0, 0, none⟩, ⟨0, 1, none⟩, ⟨0, 2, none⟩, ⟨0, 3, none⟩]
    let s : SegmentLengths Float := ⟨[1, 2, 3], .kilometers⟩
    2 ≤ points.length ∧ s.lengths.length = points.length - 1
      ∧ (∀ d ∈ s.milestones, Scalar.isFinite d = true) ∧ s.milestones.Pairwise (· < ·)
      ∧ (0 : Float) ≤ 1 ∧ (1 : Float) < 5 ∧ 1 < s.upTo (points.length - 1)
      ∧ @sliceWith Float smallAngles.trig points 1 5 s
        = .ok ⟨[⟨0, 1, none⟩, ⟨0, 2, none⟩, ⟨0, 2.9910077560385804, none⟩], none⟩ := by
  intro points s
  have hfinite : ∀ d ∈ s.milestones, Scalar.isFinite d = true := by decide +kernel
  have hsorted : s.milestones.Pairwise (· < ·) := by decide +kernel
  have hzero : (0 : Float) ≤ 1 := by decide +kernel
  have hstop : (1 : Float) < 5 := by decide +kernel
  have hbelow : (1 : Float) < s.upTo (points.length - 1) := by decide +kernel
  obtain ⟨p, q, hp, hq, hslice⟩ := sliceWith_passes smallAngles points s
    (by decide) (by decide) hfinite hsorted hzero hstop hbelow
  have hfirst : @SegmentLengths.pointAt? Float smallAngles.trig points s 1
      = some ⟨0, 1, none⟩ :=
    @SegmentLengths.pointAt?_at_vertex Float smallAngles.trig points 1 s 0 _ _
      (by decide +kernel) rfl rfl (by decide +kernel)
  have hsecond : @SegmentLengths.pointAt? Float smallAngles.trig points s 5
      = some ⟨0, 2.9910077560385804, none⟩ := by
    have hplace : @destination Float smallAngles.trig ⟨0, 3, none⟩ (5 - s.upTo 3)
        (@bearing Float smallAngles.trig ⟨0, 3, none⟩ ⟨0, 2, none⟩ - 180) s.unit
          = ⟨0, 2.9910077560385804, none⟩ :=
      point_eq_of_toBits_eq (by decide +kernel) (by decide +kernel) rfl
    rw [← hplace]
    exact @SegmentLengths.pointAt?_before_vertex Float smallAngles.trig points 5 s 2 _ _
      (by decide +kernel) rfl rfl (by decide +kernel)
  have hend : Scalar.lesser 5 (s.upTo (points.length - 1)) = 5 :=
    SegmentLengths.lesser_of_le (by decide +kernel)
  have hbetween : s.between points 1 5 = [⟨0, 2, none⟩] := by
    have hkept : s.milestones.map (fun d => (decide ((1 : Float) < d), decide (d < 5)))
        = [(false, true), (false, true), (true, true), (true, false)] := by decide +kernel
    simp only [SegmentLengths.milestones, s, List.scanl_cons, List.scanl_nil, List.map_cons,
      List.map_nil, List.cons.injEq, Prod.mk.injEq] at hkept
    simp [SegmentLengths.between, SegmentLengths.milestones, points, s, List.filter, hkept]
  rw [hend] at hq hslice
  obtain rfl := Option.some.inj (hp.symm.trans hfirst)
  obtain rfl := Option.some.inj (hq.symm.trans hsecond)
  rw [hbetween] at hslice
  exact ⟨by decide, by decide, hfinite, hsorted, hzero, hstop, hbelow, hslice⟩

end Angles

end Graticule
