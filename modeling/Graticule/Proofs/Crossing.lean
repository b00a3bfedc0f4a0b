import Graticule.Proofs.Distance
import Graticule.Proofs.Distinct
import Graticule.Segment

/-!
# Where two segments meet

In exact arithmetic two segments that are not parallel have one pair of
parameters for which the points they lead to are the same, and that pair is what
a crossing holds. Cramer's rule says so in both directions: the parameters solve
the two equations, and whatever solves them is those parameters. So the test of
the parameters tells whether some point lies on both segments, and there is only
one such point.

Parallel segments meet nowhere, even where they overlap. The exception is two
segments of no length at one point, and there the point is kept as it is, with
its altitude.
-/

namespace Graticule

open Simplify

namespace Segment

/-- A position lies on a segment, its ends included. -/
def Contains (s : Segment Rat) (longitude latitude : Rat) : Prop :=
  ∃ t, 0 ≤ t ∧ t ≤ 1 ∧ between s.1 s.2 t = ⟨longitude, latitude, none⟩

/-- How far two segments are from being parallel: the area their directions span,
zero if they are parallel or one has no direction. -/
def slant (s t : Segment Rat) : Rat :=
  (t.2.latitude - t.1.latitude) * (s.2.longitude - s.1.longitude)
    - (t.2.longitude - t.1.longitude) * (s.2.latitude - s.1.latitude)

theorem slant_swap (s t : Segment Rat) : slant t s = -slant s t := by
  unfold slant
  ring

/-- Two segments meet at a point: they are not parallel and both contain it, or
it is all there is of either. -/
inductive MeetAt (s t : Segment Rat) (p : Point Rat) : Prop where
  | crossing (hslant : slant s t ≠ 0) (haltitude : p.altitude = none)
      (hs : s.Contains p.longitude p.latitude) (ht : t.Contains p.longitude p.latitude)
  | point (hs : s = (p, p)) (ht : t = (p, p))

theorem MeetAt.symm {s t : Segment Rat} {p : Point Rat} (h : MeetAt s t p) : MeetAt t s p := by
  cases h with
  | crossing hslant haltitude hs ht =>
      refine .crossing ?_ haltitude ht hs
      rw [slant_swap]
      exact neg_ne_zero.mpr hslant
  | point hs ht => exact .point ht hs

end Segment

open Segment

/-! ## The parameters of a crossing -/

theorem between_eq (start stop : Point Rat) (x : Rat) :
    between start stop x
      = ⟨start.longitude + x * (stop.longitude - start.longitude),
        start.latitude + x * (stop.latitude - start.latitude), none⟩ := by
  rw [between, mul_comm, mul_comm (stop.latitude - start.latitude)]

/-- Cramer's rule: the parameters for which two lines lead to one point are the
two quotients of a crossing. -/
theorem between_eq_between_iff {s t : Segment Rat} (hslant : slant s t ≠ 0) (u v : Rat) :
    between s.1 s.2 u = between t.1 t.2 v
      ↔ u = ((t.2.longitude - t.1.longitude) * (s.1.latitude - t.1.latitude)
            - (t.2.latitude - t.1.latitude) * (s.1.longitude - t.1.longitude)) / slant s t
        ∧ v = ((s.2.longitude - s.1.longitude) * (s.1.latitude - t.1.latitude)
            - (s.2.latitude - s.1.latitude) * (s.1.longitude - t.1.longitude)) / slant s t := by
  rw [eq_div_iff hslant, eq_div_iff hslant, between, between, Point.mk.injEq]
  unfold slant at hslant ⊢
  generalize s.2.longitude - s.1.longitude = aLon at hslant ⊢
  generalize s.2.latitude - s.1.latitude = aLat at hslant ⊢
  generalize t.2.longitude - t.1.longitude = bLon at hslant ⊢
  generalize t.2.latitude - t.1.latitude = bLat at hslant ⊢
  constructor
  · rintro ⟨hlon, hlat, -⟩
    constructor
    · linear_combination bLat * hlon - bLon * hlat
    · linear_combination aLat * hlon - aLon * hlat
  · rintro ⟨hu, hv⟩
    refine ⟨mul_left_cancel₀ hslant ?_, mul_left_cancel₀ hslant ?_, rfl⟩
    · linear_combination aLon * hu - bLon * hv
    · linear_combination aLat * hu - bLat * hv

theorem crossing?_of_slant_ne_zero {s t : Segment Rat} (hslant : slant s t ≠ 0) :
    ∃ c, crossing? s t = some c ∧ c.point = between s.1 s.2 c.first
      ∧ between s.1 s.2 c.first = between t.1 t.2 c.second := by
  refine ⟨_, if_neg ?_, (between_eq _ _ _).symm,
    (between_eq_between_iff hslant _ _).mpr ⟨rfl, rfl⟩⟩
  rw [exact_beq, decide_eq_true_eq]
  exact hslant

theorem crossing?_of_slant_eq_zero {s t : Segment Rat} (hslant : slant s t = 0) :
    crossing? s t
      = if s.1 == s.2 && t.1 == t.2 && s.1 == t.1 then some ⟨s.1, 0, 0⟩ else none := by
  refine if_pos ?_
  rw [exact_beq, decide_eq_true_eq]
  exact hslant

theorem onBoth_iff {c : Crossing Rat} :
    c.onBoth = true ↔ (0 ≤ c.first ∧ c.first ≤ 1) ∧ (0 ≤ c.second ∧ c.second ≤ 1) := by
  simp only [Crossing.onBoth, Bool.and_eq_true, decide_eq_true_eq, exact_zero, exact_one]

/-! ## Meeting points -/

/-- Two parallel segments have a crossing only where both are one point. -/
theorem exists_crossing_iff_of_parallel {s t : Segment Rat} {p : Point Rat}
    (hslant : slant s t = 0) :
    (∃ c, crossing? s t = some c ∧ c.onBoth = true ∧ c.point = p) ↔ s = (p, p) ∧ t = (p, p) := by
  rw [crossing?_of_slant_eq_zero hslant]
  constructor
  · rintro ⟨c, hc, -, rfl⟩
    split at hc
    · next hpoint =>
        obtain rfl := Option.some.inj hc
        simp only [Bool.and_eq_true, beq_iff_eq] at hpoint
        obtain ⟨⟨hs, ht⟩, hst⟩ := hpoint
        exact ⟨Prod.ext rfl hs.symm, Prod.ext hst.symm (ht.symm.trans hst.symm)⟩
    · cases hc
  · rintro ⟨rfl, rfl⟩
    refine ⟨_, if_pos (by simp), onBoth_iff.mpr ⟨?_, ?_⟩, rfl⟩
    · exact ⟨le_rfl, zero_le_one⟩
    · exact ⟨le_rfl, zero_le_one⟩

/-- Two segments that are not parallel have a crossing at a point exactly if it is
on both. -/
theorem exists_crossing_iff_of_slant_ne_zero {s t : Segment Rat} {p : Point Rat}
    (hslant : slant s t ≠ 0) :
    (∃ c, crossing? s t = some c ∧ c.onBoth = true ∧ c.point = p)
      ↔ p.altitude = none ∧ s.Contains p.longitude p.latitude
        ∧ t.Contains p.longitude p.latitude := by
  obtain ⟨c, hc, hfirst, hsecond⟩ := crossing?_of_slant_ne_zero hslant
  constructor
  · rintro ⟨c', hc', hon, rfl⟩
    obtain rfl := Option.some.inj (hc.symm.trans hc')
    obtain ⟨⟨hu₀, hu₁⟩, hv₀, hv₁⟩ := onBoth_iff.mp hon
    have haltitude : c.point.altitude = none := by rw [hfirst, between]
    have hpoint : c.point = ⟨c.point.longitude, c.point.latitude, none⟩ := by
      rw [← haltitude]
    exact ⟨haltitude, ⟨c.first, hu₀, hu₁, hfirst.symm.trans hpoint⟩,
      ⟨c.second, hv₀, hv₁, hsecond.symm.trans (hfirst.symm.trans hpoint)⟩⟩
  · rintro ⟨haltitude, ⟨u, hu₀, hu₁, hu⟩, v, hv₀, hv₁, hv⟩
    -- Two parameters that lead to one point are those of the crossing.
    obtain ⟨rfl, rfl⟩ : u = c.first ∧ v = c.second := by
      have huv := (between_eq_between_iff hslant u v).mp (hu.trans hv.symm)
      have hc := (between_eq_between_iff hslant _ _).mp hsecond
      exact ⟨huv.1.trans hc.1.symm, huv.2.trans hc.2.symm⟩
    refine ⟨c, hc, onBoth_iff.mpr ⟨⟨hu₀, hu₁⟩, hv₀, hv₁⟩, ?_⟩
    rw [hfirst, hu, ← haltitude]

/-- A crossing with both parameters from zero to one is a point in which the two
segments meet, and there is one for every such point. -/
theorem exists_crossing_iff {s t : Segment Rat} {p : Point Rat} :
    (∃ c, crossing? s t = some c ∧ c.onBoth = true ∧ c.point = p) ↔ MeetAt s t p := by
  by_cases hslant : slant s t = 0
  · rw [exists_crossing_iff_of_parallel hslant]
    constructor
    · rintro ⟨hs, ht⟩
      exact .point hs ht
    · intro hmeet
      cases hmeet with
      | crossing hne _ _ _ => exact absurd hslant hne
      | point hs ht => exact ⟨hs, ht⟩
  · rw [exists_crossing_iff_of_slant_ne_zero hslant]
    constructor
    · rintro ⟨haltitude, hs, ht⟩
      exact .crossing hslant haltitude hs ht
    · intro hmeet
      cases hmeet with
      | crossing _ haltitude hs ht => exact ⟨haltitude, hs, ht⟩
      | point hs ht =>
          subst hs ht
          exact absurd (by simp [slant]) hslant

end Graticule
