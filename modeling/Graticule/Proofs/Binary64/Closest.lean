import Graticule.Proofs.Binary64.Between
import Graticule.Proofs.Candidates
import Graticule.Proofs.Closest

/-!
# The point of a line of doubles closest to a point

What may be snapped to is said apart from how a snap goes about it: `Snap.Listed` has the
candidates of a line, feet of perpendiculars among them, and of doubles too there is just
one such list.

Comparison of doubles is a strict order on those that are numbers, and what a snap starts
from is farther than every finite distance. So the first of the nearest candidates is
taken whenever some candidate is at a distance at all. Otherwise the snap is what it
started from, which is on no segment but has the number of the first, and so even then
the part of a line between two snaps is cut where the line has vertices.
-/

namespace Graticule

namespace Binary64

theorem lt_infinity_of_isFinite {x : Float} (h : x.isFinite = true) : x < infinity := by
  obtain ⟨p, hp, hlt⟩ := isFinite_iff.mp h
  have htop : value infinity = some tooLarge := rfl
  exact lt_iff.mpr ⟨p, tooLarge, hp, htop, (abs_lt.mp hlt).2⟩

end Binary64

namespace Angles

open Binary64

/-- Of a line of doubles the candidates are listed segment by segment: the start, the end and
the foot of the perpendicular, if it is strictly inside. A snap is on one of the segments.
Where every distance is finite or not a number it is the first of the nearest candidates,
unless there is no distance, and is no farther than the nearest vertex. The part of the line
between two snaps has the vertices between their segments, none missing. -/
theorem toLine_closest (f : Angles) (p : Point Float) (path : List (Point Float))
    (unit : LengthUnit) (hlength : 2 ≤ path.length) :
    ∃ (s : Snap Float) (cs : List (Snap Float)),
      @Snap.toLine Float f.trig p path unit = .ok s
      ∧ (∀ ds, @Snap.Listed Float f.trig p unit 0 path ds ↔ ds = cs)
      ∧ s.index + 1 < path.length
      ∧ ((∀ c ∈ cs, Scalar.isNaN c.distance = true ∨ Scalar.isFinite c.distance = true) →
          ((∃ c ∈ cs, Scalar.isNaN c.distance = false) → s.FirstNearest cs)
          ∧ (unit = default →
            (∃ v ∈ path, Scalar.isNaN (@distance Float f.trig p v unit) = false) →
            s.distance ≤ @distance Float f.trig p (@nearest Float f.trig p path) unit))
      ∧ (unit = default → ∀ q, (p == q) = false → ∃ (b : Snap Float) (line : LineString Float),
          @Snap.toLine Float f.trig q path unit = .ok b
          ∧ @lineBetween Float f.trig p q path = .ok line
          ∧ line.points.length = max s.index b.index - min s.index b.index + 2) := by
  have hs := @Snap.toLine_of_length Float f.trig path p unit hlength
  refine ⟨_, _, hs, fun ds => @Snap.listed_iff Float f.trig p path unit ds _,
    @Snap.index_lt_of_toLine Float f.trig p path unit _ _ hs, ?_, ?_⟩
  · intro hdistances
    have hfar : ∀ c ∈ @Snap.candidates Float f.trig p path unit,
        Scalar.isNaN c.distance = false → c.distance < infinity := by
      intro c hc hnumber
      rcases hdistances c hc with hnan | hfinite
      · rw [hnumber] at hnan
        cases hnan
      · exact lt_infinity_of_isFinite (scalar_isFinite_iff.mp hfinite)
    refine ⟨@Snap.toLine_firstNearest Float f.trig _ p path unit _ hs hfar, ?_⟩
    rintro rfl
    exact @Snap.distance_le_nearest Float f.trig _ p path _ hs hfar
  · rintro rfl q hne
    have hb := @Snap.toLine_of_length Float f.trig path q default hlength
    obtain ⟨line, hline, hcount⟩ :=
      @length_lineBetween Float f.trig _ p q path _ _ hne hs hb
    exact ⟨_, line, hb, hline, hcount⟩

/-- The first vertex is nowhere, and the point is a degree north of the middle of the second
segment: the foot there is taken. -/
theorem toLine_closest_of_three_vertices :
    let p : Point Float := ⟨1, 1, none⟩
    let q : Point Float := ⟨2, 1, none⟩
    let u : Point Float := ⟨0, 0, none⟩
    let v : Point Float := ⟨2, 0, none⟩
    let path : List (Point Float) := [⟨notANumber, 0, none⟩, u, v]
    2 ≤ path.length ∧ (p == q) = false
      ∧ (∃ v ∈ path, Scalar.isNaN (@distance Float smallAngles.trig p v default) = false)
      ∧ ∃ (s b : Snap Float) (cs : List (Snap Float)) (line : LineString Float),
        @Snap.toLine Float smallAngles.trig p path default = .ok s
        ∧ @Snap.Listed Float smallAngles.trig p default 0 path cs
        ∧ (∀ c ∈ cs, Scalar.isNaN c.distance = true ∨ Scalar.isFinite c.distance = true)
        ∧ (∃ c ∈ cs, Scalar.isNaN c.distance = false)
        ∧ s.index + 1 < path.length ∧ s.FirstNearest cs
        ∧ @Snap.IsFoot Float smallAngles.trig p u v default ⟨1, 0, none⟩
        ∧ s.point = ⟨1, 0, none⟩ ∧ s.index = 1
        ∧ s.distance
          ≤ @distance Float smallAngles.trig p (@nearest Float smallAngles.trig p path) default
        ∧ @Snap.toLine Float smallAngles.trig q path default = .ok b
        ∧ @lineBetween Float smallAngles.trig p q path = .ok line
        ∧ line.points.length = max s.index b.index - min s.index b.index + 2 := by
  intro p q u v path
  have hvertex : ∃ v ∈ path,
      Scalar.isNaN (@distance Float smallAngles.trig p v default) = false := by decide +kernel
  have hne : (p == q) = false := by decide +kernel
  obtain ⟨s, cs, hs, hlisted, hindex, hclosest, hbetween⟩ :=
    toLine_closest smallAngles p path default (by decide)
  have hcs : @Snap.Listed Float smallAngles.trig p default 0 path cs := (hlisted cs).mpr rfl
  obtain rfl := (@Snap.listed_iff Float smallAngles.trig p path default cs _).mp hcs
  have hdistances : ∀ c ∈ @Snap.candidates Float smallAngles.trig p path default,
      Scalar.isNaN c.distance = true ∨ Scalar.isFinite c.distance = true := by decide +kernel
  have hsome : ∃ c ∈ @Snap.candidates Float smallAngles.trig p path default,
      Scalar.isNaN c.distance = false := by decide +kernel
  obtain ⟨hfirst, hnearest⟩ := hclosest hdistances
  obtain ⟨b, line, hb, hline, hcount⟩ := hbetween rfl q hne
  have hfoot : @Snap.IsFoot Float smallAngles.trig p u v default ⟨1, 0, none⟩ :=
    ⟨by decide +kernel, by decide +kernel, by decide +kernel,
      point_eq_of_toBits_eq (by decide +kernel) (by decide +kernel) rfl⟩
  obtain ⟨-, hnear⟩ := @Snap.toLine_eq_ok Float smallAngles.trig p path default s hs
  have hpoint : s.point = ⟨1, 0, none⟩ := by
    rw [← hnear]
    exact point_eq_of_toBits_eq (by decide +kernel) (by decide +kernel)
      (Option.isNone_iff_eq_none.mp (by decide +kernel))
  have hsegment : s.index = 1 := by
    rw [← hnear]
    decide +kernel
  exact ⟨by decide, hne, hvertex, s, b, _, line, hs, hcs, hdistances, hsome, hindex, hfirst hsome,
    hfoot, hpoint, hsegment, hnearest rfl hvertex, hb, hline, hcount⟩

end Angles

end Graticule
