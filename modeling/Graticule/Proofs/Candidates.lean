import Graticule.Proofs.Crossing
import Graticule.Proofs.Snapping

/-!
# What a point may snap to

The two ends of a segment are candidates whatever the point is. The foot of the perpendicular
is a third one where it falls strictly inside the segment and strictly inside the
perpendicular, which reaches as far on either side of the point as the farther end of the
segment is away. `Listed` says by recursion on the path which points are tried and in what
order, and the candidates of a snap are these and no others.

Where the perpendicular meets the segment is said by Cramer's rule, as it is computed: with
doubles the same rule written another way may give another foot. In exact arithmetic it is
the one point strictly inside both.
-/

namespace Graticule

variable {α : Type}

namespace Segment

/-- Two segments that are not parallel cross at a point strictly inside both, the parameters
along the one and the other by Cramer's rule. -/
def CrossesAt [Scalar α] (s t : Segment α) (q : Point α) : Prop :=
  let slant := (t.2.latitude - t.1.latitude) * (s.2.longitude - s.1.longitude)
    - (t.2.longitude - t.1.longitude) * (s.2.latitude - s.1.latitude)
  let x := ((t.2.longitude - t.1.longitude) * (s.1.latitude - t.1.latitude)
    - (t.2.latitude - t.1.latitude) * (s.1.longitude - t.1.longitude)) / slant
  let y := ((s.2.longitude - s.1.longitude) * (s.1.latitude - t.1.latitude)
    - (s.2.latitude - s.1.latitude) * (s.1.longitude - t.1.longitude)) / slant
  (slant == 0) = false ∧ (0 < x ∧ x < 1) ∧ (0 < y ∧ y < 1)
    ∧ q = ⟨s.1.longitude + x * (s.2.longitude - s.1.longitude),
      s.1.latitude + x * (s.2.latitude - s.1.latitude), none⟩

/-- A position lies on a segment, its ends excluded. -/
def Inside (s : Segment Rat) (longitude latitude : Rat) : Prop :=
  ∃ t, 0 < t ∧ t < 1 ∧ Simplify.between s.1 s.2 t = ⟨longitude, latitude, none⟩

/-- In exact arithmetic two segments cross at a point if they are not parallel and the point is
strictly inside both. -/
theorem crossesAt_iff_inside {s t : Segment Rat} {q : Point Rat} :
    s.CrossesAt t q
      ↔ slant s t ≠ 0 ∧ q.altitude = none ∧ s.Inside q.longitude q.latitude
        ∧ t.Inside q.longitude q.latitude := by
  obtain ⟨longitude, latitude, altitude⟩ := q
  constructor
  · rintro ⟨hslant, ⟨hx₀, hx₁⟩, ⟨hy₀, hy₁⟩, hq⟩
    have hne : slant s t ≠ 0 := by
      rw [exact_beq, decide_eq_false_iff_not] at hslant
      exact hslant
    have hmeet := (between_eq_between_iff hne _ _).mpr ⟨rfl, rfl⟩
    obtain rfl : altitude = none := congrArg Point.altitude hq
    have hx := (between_eq s.1 s.2 _).trans hq.symm
    exact ⟨hne, rfl, ⟨_, hx₀, hx₁, hx⟩, _, hy₀, hy₁, hmeet.symm.trans hx⟩
  · rintro ⟨hne, haltitude, ⟨x, hx₀, hx₁, hx⟩, y, hy₀, hy₁, hy⟩
    obtain rfl : altitude = none := haltitude
    obtain ⟨rfl, rfl⟩ := (between_eq_between_iff hne x y).mp (hx.trans hy.symm)
    refine ⟨?_, ⟨hx₀, hx₁⟩, ⟨hy₀, hy₁⟩, hx.symm.trans (between_eq _ _ _)⟩
    rw [exact_beq, decide_eq_false_iff_not]
    exact hne

variable [Scalar α] [StrictlyOrdered α]

/-- A crossing that is inside both segments is where they cross. Where the lines through them
are one, the parameters are zero, and so inside neither. -/
theorem inside_eq_some_iff {s t : Segment α} {q : Point α} :
    ((crossing? s t).bind fun c =>
        if c.insideFirst && c.insideSecond then some c.point else none) = some q
      ↔ s.CrossesAt t q := by
  obtain ⟨a₁, a₂⟩ := s
  obtain ⟨b₁, b₂⟩ := t
  unfold CrossesAt crossing?
  dsimp only
  generalize (b₂.latitude - b₁.latitude) * (a₂.longitude - a₁.longitude)
    - (b₂.longitude - b₁.longitude) * (a₂.latitude - a₁.latitude) = slant
  cases hslant : slant == 0 with
  | true =>
      rw [if_pos rfl]
      refine iff_of_false ?_ fun h => absurd h.1 (by simp)
      split
      · simp [Crossing.insideFirst, StrictlyOrdered.lt_irrefl]
      · simp
  | false =>
      rw [if_neg Bool.false_ne_true, Option.bind_some]
      simp only [Crossing.insideFirst, Crossing.insideSecond, Bool.and_eq_true,
        decide_eq_true_eq, Option.ite_none_right_eq_some, Option.some.injEq, true_and, and_assoc]
      rw [eq_comm (b := q)]

end Segment

namespace Snap

variable [Trig α] {p u v q : Point α} {path : List (Point α)} {unit : LengthUnit}
  {index : Nat} {cs : List (Snap α)}

/-- The foot of the perpendicular from a point to a segment. The perpendicular is at right angles
to the bearing of the segment, and reaches as far on either side of the point as the farther
end of the segment is away. -/
def IsFoot (p u v : Point α) (unit : LengthUnit) (q : Point α) : Prop :=
  let reach := Scalar.greater (Graticule.distance p u unit) (Graticule.distance p v unit)
  Segment.CrossesAt
    (destination p reach (bearing u v + 90) unit, destination p reach (bearing u v - 90) unit)
    (u, v) q

/-- The candidates of a path whose first segment has a number: of each segment the start, the
end and the foot of the perpendicular if there is one, with their distances. -/
inductive Listed (p : Point α) (unit : LengthUnit) :
    Nat → List (Point α) → List (Snap α) → Prop where
  | nil (index : Nat) : Listed p unit index [] []
  | last (index : Nat) (v : Point α) : Listed p unit index [v] []
  | ends {index : Nat} {u v : Point α} {rest : List (Point α)} {cs : List (Snap α)}
      (hnone : ∀ q, ¬ IsFoot p u v unit q) (hrest : Listed p unit (index + 1) (v :: rest) cs) :
      Listed p unit index (u :: v :: rest)
        (⟨u, Graticule.distance p u unit, index⟩ :: ⟨v, Graticule.distance p v unit, index⟩ :: cs)
  | foot {index : Nat} {u v q : Point α} {rest : List (Point α)} {cs : List (Snap α)}
      (hfoot : IsFoot p u v unit q) (hrest : Listed p unit (index + 1) (v :: rest) cs) :
      Listed p unit index (u :: v :: rest)
        (⟨u, Graticule.distance p u unit, index⟩ :: ⟨v, Graticule.distance p v unit, index⟩
          :: ⟨q, Graticule.distance p q unit, index⟩ :: cs)

variable [StrictlyOrdered α]

theorem foot?_eq_some_iff :
    foot? p (u, v) (Scalar.greater (Graticule.distance p u unit) (Graticule.distance p v unit))
        unit = some q
      ↔ IsFoot p u v unit q :=
  Segment.inside_eq_some_iff

theorem ofSegment_of_foot (h : IsFoot p u v unit q) (index : Nat) :
    ofSegment p (u, v) index unit
      = [⟨u, Graticule.distance p u unit, index⟩, ⟨v, Graticule.distance p v unit, index⟩,
        ⟨q, Graticule.distance p q unit, index⟩] := by
  rw [ofSegment]
  dsimp only
  rw [foot?_eq_some_iff.mpr h]
  rfl

theorem ofSegment_of_no_foot (h : ∀ q, ¬ IsFoot p u v unit q) (index : Nat) :
    ofSegment p (u, v) index unit
      = [⟨u, Graticule.distance p u unit, index⟩, ⟨v, Graticule.distance p v unit, index⟩] := by
  have hnone := Option.eq_none_iff_forall_ne_some.mpr fun q hq => h q (foot?_eq_some_iff.mp hq)
  rw [ofSegment]
  dsimp only
  rw [hnone]
  rfl

theorem listed_from_iff :
    Listed p unit index path cs
      ↔ cs = ((legs path).zipIdx index).flatMap fun (s, i) => ofSegment p s i unit := by
  induction path generalizing index cs with
  | nil =>
      constructor
      · intro h
        cases h
        rfl
      · rintro rfl
        exact .nil index
  | cons u path ih =>
      cases path with
      | nil =>
          constructor
          · intro h
            cases h
            rfl
          · rintro rfl
            exact .last index u
      | cons v rest =>
          have hsegment : ((legs (u :: v :: rest)).zipIdx index).flatMap
                (fun (s, i) => ofSegment p s i unit)
              = ofSegment p (u, v) index unit ++ ((legs (v :: rest)).zipIdx (index + 1)).flatMap
                (fun (s, i) => ofSegment p s i unit) := rfl
          rw [hsegment]
          constructor
          · intro h
            cases h with
            | ends hnone hrest =>
                rw [ofSegment_of_no_foot hnone, ih.mp hrest]
                rfl
            | foot hfoot hrest =>
                rw [ofSegment_of_foot hfoot, ih.mp hrest]
                rfl
          · rintro rfl
            by_cases hfoot : ∃ q, IsFoot p u v unit q
            · obtain ⟨q, hfoot⟩ := hfoot
              rw [ofSegment_of_foot hfoot]
              exact .foot hfoot (ih.mpr rfl)
            · have hnone := not_exists.mp hfoot
              rw [ofSegment_of_no_foot hnone]
              exact .ends hnone (ih.mpr rfl)

/-- The candidates of a snap are those of its line, from its first segment on. -/
theorem listed_iff : Listed p unit 0 path cs ↔ cs = candidates p path unit :=
  listed_from_iff

end Snap

end Graticule
