import Graticule.Proofs.Binary64.Ordered
import Graticule.Proofs.Slice

/-!
# Paths of doubles

The angles of a path of doubles are measured by the platform, and nothing is
known here of its functions but the range of the arc tangent of two components,
half a turn to either side. That is enough to bound the legs of a path, and then
its length is finite however many legs it has: once the sum is large enough, what
a leg adds is lost in rounding.

So along paths of doubles slices end where their distances fall, and two slices
that share a distance meet in one point.
-/

namespace Graticule

open Binary64

/-- The functions of angles on doubles, as some platform computes them. -/
structure Angles where
  /-- Sine of an angle in radians. -/
  sin : Float → Float
  /-- Cosine of an angle in radians. -/
  cos : Float → Float
  /-- Arc sine, in radians. -/
  asin : Float → Float
  /-- Angle in radians of the vector with this ordinate and abscissa. -/
  atan2 : Float → Float → Float

namespace Angles

/-- The functions of the sphere on doubles, with these for the angles. -/
@[reducible]
def trig (f : Angles) : Trig Float :=
  { instTrigFloat with sin := f.sin, cos := f.cos, asin := f.asin, atan2 := f.atan2 }

/-- The functions of the platform that the library runs on. -/
def native : Angles := ⟨Float.sin, Float.cos, Float.asin, Float.atan2⟩

theorem native_trig : native.trig = instTrigFloat := rfl

/-- The arc tangent is from `-π` to `π`, if it is a number. Nothing depends on
how a platform rounds these ends, so they are taken a little further out. -/
def Bounded (f : Angles) : Prop :=
  ∀ y x, (f.atan2 y x).isNaN = true ∨ -4.0 ≤ f.atan2 y x ∧ f.atan2 y x ≤ 4.0

end Angles

/-! ## The length of a path -/

/-- However many legs are added up, the sum stays below what no leg changes any
more. -/
theorem foldl_bounded {ds : List Float} (hds : ∀ d ∈ ds, -1e10 ≤ d ∧ d ≤ 1e10) {t : Float}
    (ht : -1e30 ≤ t ∧ t ≤ 1e30) :
    -1e30 ≤ ds.foldl (· + ·) t ∧ ds.foldl (· + ·) t ≤ 1e30 := by
  have hlow : (-1e30 : Float) ≤ -1e30 + -1e10 := by decide +kernel
  have hhigh : (1e30 : Float) + 1e10 ≤ 1e30 := by decide +kernel
  induction ds generalizing t with
  | nil => exact ht
  | cons d ds ih =>
      obtain ⟨hd, hds⟩ := List.forall_mem_cons.mp hds
      have htFinite := isFinite_of_between (by decide +kernel) (by decide +kernel) ht
      have hdFinite := isFinite_of_between (by decide +kernel) (by decide +kernel) hd
      refine ih hds ⟨?_, ?_⟩
      · exact OrderedScalar.le_trans hlow
          (add_le_add ht.1 hd.1 htFinite (by decide +kernel) hdFinite)
      · exact OrderedScalar.le_trans
          (add_le_add ht.2 hd.2 (by decide +kernel) hdFinite (by decide +kernel)) hhigh

theorem perRadian_bounds (unit : LengthUnit) :
    (0 : Float) ≤ unit.perRadian ∧ (unit.perRadian : Float).isFinite = true
      ∧ -1e10 ≤ -8.0 * (unit.perRadian : Float) ∧ 8.0 * (unit.perRadian : Float) ≤ 1e10 := by
  cases unit <;> decide +kernel

namespace Angles

variable {f : Angles} {unit : LengthUnit}

theorem distance_bounded (hf : f.Bounded) {a b : Point Float}
    (h : (@distance Float f.trig a b unit).isFinite = true) :
    -1e10 ≤ @distance Float f.trig a b unit ∧ @distance Float f.trig a b unit ≤ 1e10 := by
  obtain ⟨y, x, hdistance⟩ : ∃ y x : Float,
      @distance Float f.trig a b unit = 2 * f.atan2 y x * unit.perRadian := ⟨_, _, rfl⟩
  rw [hdistance] at h ⊢
  obtain ⟨hzero, hunit, hlow, hhigh⟩ := perRadian_bounds unit
  have hnumber := hf y x
  generalize f.atan2 y x = angle at h hnumber ⊢
  rcases hnumber with hnan | hangle
  · exact absurd (isNaN_mul (.inl (isNaN_mul (.inr hnan)))) (not_isNaN_of_isFinite h)
  · have hfinite := isFinite_of_between (by decide +kernel) (by decide +kernel) hangle
    have htwice : -8.0 ≤ 2 * angle ∧ 2 * angle ≤ 8.0 := by
      have hlowest : (-8.0 : Float) ≤ 2 * -4.0 := by decide +kernel
      have hhighest : (2 : Float) * 4.0 ≤ 8.0 := by decide +kernel
      have hge : 2 * -4.0 ≤ 2 * angle := mul_le_mul_left hangle.1 (by decide +kernel) hfinite
        (by decide +kernel) (by decide +kernel)
      have hle : 2 * angle ≤ 2 * 4.0 := mul_le_mul_left hangle.2 hfinite (by decide +kernel)
        (by decide +kernel) (by decide +kernel)
      exact ⟨OrderedScalar.le_trans hlowest hge, OrderedScalar.le_trans hle hhighest⟩
    have hfinite' := isFinite_of_between (by decide +kernel) (by decide +kernel) htwice
    have hge := mul_le_mul_right htwice.1 (by decide +kernel) hfinite' hunit hzero
    have hle := mul_le_mul_right htwice.2 hfinite' (by decide +kernel) hunit hzero
    exact ⟨OrderedScalar.le_trans hlow hge, OrderedScalar.le_trans hle hhigh⟩

/-- A path with finite legs has a finite length. -/
theorem pathLength_isFinite (hf : f.Bounded) {points : List (Point Float)}
    (hlegs : ∀ d ∈ @legLengths Float f.trig points unit, d.isFinite = true) :
    (@pathLength Float f.trig points unit).isFinite = true := by
  have hzero : (-1e30 : Float) ≤ -0 ∧ (-0 : Float) ≤ 1e30 := by decide +kernel
  refine isFinite_of_between (by decide +kernel) (by decide +kernel)
    (foldl_bounded (fun d hd => ?_) hzero)
  have hfinite := hlegs d hd
  obtain ⟨⟨a, b⟩, -, rfl⟩ := List.mem_map.mp hd
  exact distance_bounded hf hfinite

/-- Along a path of doubles with finite legs, a slice from a distance that is on
the path exists, starts at the point at that distance and ends at the point at
its stop, which is the last point if the path is over by then. A slice from there
on starts with the same point. -/
theorem slice_meets_along (hf : f.Bounded) {points : List (Point Float)}
    {start stop : Float} (hlength : 2 ≤ points.length)
    (hlegs : ∀ d ∈ @legLengths Float f.trig points unit, d.isFinite = true)
    (hstart : 0 ≤ start) (hstop : start < stop)
    (htotal : start < @pathLength Float f.trig points unit) :
    ∃ (line : LineString Float) (p q : Point Float),
      @slice Float f.trig points start stop unit = .ok line
      ∧ @along Float f.trig points start unit = .ok p ∧ line.points.head? = some p
      ∧ @along Float f.trig points stop unit = .ok q ∧ line.points.getLast? = some q
      ∧ ∀ next, stop < next → stop < @pathLength Float f.trig points unit →
        ∃ line' : LineString Float, @slice Float f.trig points stop next unit = .ok line'
          ∧ line'.points.head? = line.points.getLast? := by
  have hends {a b : Float} (hzero : 0 ≤ a) (hab : a < b)
      (hbelow : a < @pathLength Float f.trig points unit) :=
    @slice_eq_along Float f.trig _ a b unit points hlength
      (fun d hd => scalar_isFinite_iff.mpr (hlegs d hd))
      (scalar_isFinite_iff.mpr (pathLength_isFinite hf hlegs)) hzero hab hbelow
  obtain ⟨p, q, inner, hp, hq, hslice⟩ := hends hstart hstop htotal
  have hlast : (p :: (inner ++ [q])).getLast? = some q :=
    List.getLast?_concat (l := p :: inner)
  refine ⟨_, p, q, hslice, hp, rfl, hq, hlast, fun next hnext hbelow => ?_⟩
  obtain ⟨p', q', inner', hp', -, hslice'⟩ :=
    hends (OrderedScalar.le_trans hstart (OrderedScalar.le_of_lt hstop)) hnext hbelow
  rw [hq, Except.ok.injEq] at hp'
  subst hp'
  exact ⟨_, hslice', hlast.symm⟩

/-- Half way around the equator the legs are measured at right angles only. -/
def rightAngles : Angles where
  sin x := if x == 0 then 0 else 1
  cos x := if x == 0 then 1 else 0
  asin x := if x == 0 then 0 else 1.5707963267948966
  atan2 y _ := if y == 0 then 0 else 1.5707963267948966

theorem rightAngles_bounded : rightAngles.Bounded := by
  intro y x
  refine .inr ?_
  show -4.0 ≤ (if y == 0 then _ else _) ∧ (if y == 0 then _ else _) ≤ 4.0
  split <;> decide +kernel

/-- The stop is beyond the path, which is half the equator. -/
theorem slice_meets_along_of_equator :
    ∃ (line : LineString Float) (p q : Point Float),
      @slice Float rightAngles.trig [⟨0, 0, none⟩, ⟨180, 0, none⟩] 0 30000 .kilometers = .ok line
      ∧ @along Float rightAngles.trig [⟨0, 0, none⟩, ⟨180, 0, none⟩] 0 .kilometers = .ok p
      ∧ line.points.head? = some p
      ∧ @along Float rightAngles.trig [⟨0, 0, none⟩, ⟨180, 0, none⟩] 30000 .kilometers = .ok q
      ∧ line.points.getLast? = some q := by
  obtain ⟨line, p, q, hline, hp, hfirst, hq, hlast, -⟩ :=
    @slice_meets_along rightAngles .kilometers rightAngles_bounded
      [⟨0, 0, none⟩, ⟨180, 0, none⟩] 0 30000 (by decide) (by decide +kernel)
      (by decide +kernel) (by decide +kernel) (by decide +kernel)
  exact ⟨line, p, q, hline, hp, hfirst, hq, hlast⟩

end Angles

end Graticule
