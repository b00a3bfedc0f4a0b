import Graticule.Proofs.Between
import Graticule.Proofs.Binary64.Identity
import Graticule.Proofs.Binary64.Milestones

/-!
# The part of a line of doubles between two points

A vertex between two segments has to be as far from a point on the later segment as it
is on the earlier, for a snap to take it on the earlier. Points are equal by the identity
of their components, so a vertex may be met there with a zero of the other sign, and
then it takes a law of the functions of angles for it to be as far: sine keeps the sign
of a zero, and cosine does not see it. Everything else of a distance is the same double.
-/

namespace Graticule.Angles

open Binary64

variable {f : Angles} {x y : Float}

/-- Sine keeps a zero, with its sign, and cosine does not tell the zeros apart. -/
structure KeepsZero (f : Angles) : Prop where
  sin_zero : f.sin 0 = 0
  sin_neg_zero : f.sin (-0) = -0
  cos_neg_zero : f.cos (-0) = f.cos 0

/-- Functions of angles by the first terms of their series, near enough for a few degrees
and for headings due north and due south. -/
def smallAngles : Angles where
  sin x := if 9 < x * x then 0 else x * (1 - x * x / 6)
  cos x := if 9 < x * x then -1 else 1 - x * x / 2
  asin x := x * (1 + x * x / 6)
  atan2 y x :=
    let halfTurn : Float := if y < 0 then -3.141592653589793 else 3.141592653589793
    let small := y / x * (1 - y / x * (y / x) / 3)
    if x == 0 then halfTurn / 2 else if x < 0 then small + halfTurn else small

theorem smallAngles_keepsZero : smallAngles.KeepsZero := by
  constructor <;> decide +kernel

theorem radians_zero : Trig.radians (0 : Float) = 0 := by decide +kernel

theorem radians_neg_zero : Trig.radians (-0 : Float) = -0 := by decide +kernel

theorem cos_radians_eq (hf : f.KeepsZero) (h : Scalar.same x y = true) :
    f.cos (Trig.radians x) = f.cos (Trig.radians y) := by
  have hzeros : f.cos (Trig.radians (-0)) = f.cos (Trig.radians 0) := by
    rw [radians_neg_zero, radians_zero, hf.cos_neg_zero]
  rcases eq_or_zeros_of_same h with rfl | ⟨rfl | rfl, rfl | rfl⟩
  · rfl
  · rfl
  · exact hzeros.symm
  · exact hzeros
  · rfl

/-- The difference from a third double is the same, or it is a zero that the sine
keeps and the square makes positive. -/
theorem squared_sin_eq (hf : f.KeepsZero) (h : Scalar.same x y = true) (a : Float) :
    Scalar.squared (f.sin (Trig.radians (x - a) / 2))
      = Scalar.squared (f.sin (Trig.radians (y - a) / 2)) := by
  have hzeros : Scalar.squared (f.sin (Trig.radians (-0 - a) / 2))
      = Scalar.squared (f.sin (Trig.radians (0 - a) / 2)) := by
    have hhalf : (0 : Float) / 2 = 0 := by decide +kernel
    have hhalfNeg : (-0 : Float) / 2 = -0 := by decide +kernel
    rw [sub_eq_add_opposite, sub_eq_add_opposite]
    rcases neg_zero_add_eq (-a) with hsame | ⟨hneg, hpos⟩
    · rw [hsame]
    · rw [hneg, hpos, radians_neg_zero, radians_zero, hhalf, hhalfNeg, hf.sin_zero,
        hf.sin_neg_zero]
      decide +kernel
  rcases eq_or_zeros_of_same h with rfl | ⟨rfl | rfl, rfl | rfl⟩
  · rfl
  · rfl
  · exact hzeros.symm
  · exact hzeros
  · rfl

/-- The square of half the chord between two points, as it is computed. -/
def haversine (f : Angles) (p q : Point Float) : Float :=
  Scalar.squared (f.sin (Trig.radians (q.latitude - p.latitude) / 2))
    + Scalar.squared (f.sin (Trig.radians (q.longitude - p.longitude) / 2))
      * f.cos (Trig.radians p.latitude) * f.cos (Trig.radians q.latitude)

theorem distance_eq (f : Angles) (p q : Point Float) (unit : LengthUnit) :
    @distance Float f.trig p q unit
      = 2 * f.atan2 (f.haversine p q).sqrt (1 - f.haversine p q).sqrt * unit.perRadian :=
  rfl

/-- Points that are equal are equally far. -/
theorem distance_eq_of_beq (hf : f.KeepsZero) (p : Point Float) {v w : Point Float}
    (h : (v == w) = true) (unit : LengthUnit) :
    @distance Float f.trig p v unit = @distance Float f.trig p w unit := by
  obtain ⟨hlongitude, hlatitude, -⟩ := Point.beq_iff.mp h
  have hchord : f.haversine p v = f.haversine p w := by
    rw [haversine, haversine, squared_sin_eq hf hlatitude, squared_sin_eq hf hlongitude,
      cos_radians_eq hf hlatitude]
  rw [distance_eq, distance_eq, hchord]

variable {p q : Point Float} {path : List (Point Float)} {a b : Snap Float}

/-! ## The order of the points -/

/-- The parts of a line of doubles between two points, given in either order, are equal
exactly when the points snap to different segments or to the same point. On one segment
they run from snap to snap, in opposite directions. -/
theorem lineBetween_swap_iff (f : Angles) (hlength : 2 ≤ path.length)
    (hne : (p == q) = false) :
    ∃ (a b : Snap Float) (l m : LineString Float),
      @Snap.toLine Float f.trig p path default = .ok a
      ∧ @Snap.toLine Float f.trig q path default = .ok b
      ∧ @lineBetween Float f.trig p q path = .ok l
      ∧ @lineBetween Float f.trig q p path = .ok m
      ∧ ((l == m) = true ↔ a.index ≠ b.index ∨ (a.point == b.point) = true)
      ∧ (a.index = b.index → l.points = [a.point, b.point] ∧ m.points = [b.point, a.point]) := by
  obtain ⟨a, ha⟩ : ∃ a, @Snap.toLine Float f.trig p path default = .ok a :=
    ⟨_, @Snap.toLine_of_length Float f.trig path p default hlength⟩
  obtain ⟨b, hb⟩ : ∃ b, @Snap.toLine Float f.trig q path default = .ok b :=
    ⟨_, @Snap.toLine_of_length Float f.trig path q default hlength⟩
  have hne' : (q == p) = false := by rwa [BEq.comm]
  by_cases hindex : a.index = b.index
  · refine ⟨a, b, _, _, ha, hb, @lineBetween_of_index_eq Float f.trig p q path a b hne ha hb hindex,
      @lineBetween_of_index_eq Float f.trig q p path b a hne' hb ha hindex.symm, ?_,
      fun _ => ⟨rfl, rfl⟩⟩
    have hlines : ((⟨[a.point, b.point], none⟩ : LineString Float) == ⟨[b.point, a.point], none⟩)
        = ((a.point == b.point) && ((b.point == a.point) && true) && true) := rfl
    have hcomm : (b.point == a.point) = (a.point == b.point) := BEq.comm
    rw [hlines, hcomm]
    simp [hindex]
  · have hl := @lineBetween_eq Float f.trig p q path a b hne ha hb
    have hm := (@lineBetween_comm Float f.trig p q path a b _ hne ha hb hindex).symm.trans hl
    refine ⟨a, b, _, _, ha, hb, hl, hm, iff_of_true ?_ (.inl hindex), fun h => absurd h hindex⟩
    exact beq_self_eq_true _

theorem lineBetween_swap_iff_of_two_segments :
    ∃ l m : LineString Float,
      @lineBetween Float smallAngles.trig ⟨0, 0, none⟩ ⟨2, 0, none⟩
        [⟨0, 0, none⟩, ⟨1, 0, none⟩, ⟨2, 0, none⟩] = .ok l
      ∧ @lineBetween Float smallAngles.trig ⟨2, 0, none⟩ ⟨0, 0, none⟩
        [⟨0, 0, none⟩, ⟨1, 0, none⟩, ⟨2, 0, none⟩] = .ok m
      ∧ (l == m) = true := by
  obtain ⟨a, b, l, m, ha, hb, hl, hm, hiff, -⟩ :=
    @lineBetween_swap_iff ⟨0, 0, none⟩ ⟨2, 0, none⟩
      [⟨0, 0, none⟩, ⟨1, 0, none⟩, ⟨2, 0, none⟩] smallAngles (by decide) (by decide +kernel)
  refine ⟨l, m, hl, hm, hiff.mpr (.inl ?_)⟩
  obtain ⟨-, rfl⟩ := @Snap.toLine_eq_ok Float smallAngles.trig _ _ _ _ ha
  obtain ⟨-, rfl⟩ := @Snap.toLine_eq_ok Float smallAngles.trig _ _ _ _ hb
  decide +kernel

/-- On a single segment the order of the points is the order of the line. -/
theorem lineBetween_swap_of_one_segment :
    ∃ l m : LineString Float,
      @lineBetween Float smallAngles.trig ⟨1, 0, none⟩ ⟨0, 0, none⟩
        [⟨0, 0, none⟩, ⟨1, 0, none⟩] = .ok l
      ∧ @lineBetween Float smallAngles.trig ⟨0, 0, none⟩ ⟨1, 0, none⟩
        [⟨0, 0, none⟩, ⟨1, 0, none⟩] = .ok m
      ∧ (l == m) = false := by
  have hsnap (p : Point Float) :=
    @Snap.toLine_of_length Float smallAngles.trig [⟨0, 0, none⟩, ⟨1, 0, none⟩] p default
      (by decide)
  have hparts {p q : Point Float} (hne : (p == q) = false) :=
    @lineBetween_of_index_eq Float smallAngles.trig p q _ _ _ hne (hsnap p) (hsnap q)
  exact ⟨_, _, hparts (by decide +kernel) (by decide +kernel),
    hparts (by decide +kernel) (by decide +kernel), by decide +kernel⟩

/-! ## Vertices that are there twice -/

theorem noRepeat_through_of_toLine (hf : f.KeepsZero) (hpath : NoRepeat path)
    (hb : @Snap.toLine Float f.trig q path default = .ok b)
    (hsnaps : (a.point == b.point) = false) (hle : a.index ≤ b.index) :
    NoRepeat (a.through b path) ↔ ¬ (a.index < b.index ∧ a.AtEnd path) := by
  have hlt := @Snap.index_lt_of_toLine Float f.trig q path default b _ hb
  apply Snap.noRepeat_through hpath hle (by omega) hsnaps
  intro hindex v hv
  refine @Snap.start_ne_of_toLine Float f.trig q path default b _ hb v (by omega) hv ?_
  intro hsame
  exact distance_eq_of_beq hf q hsame default

/-- Neighbours on a line of doubles being different, and the points of it nearest to two
other points, the part of the line between these has a vertex twice in one case only: the
earlier snap is the end of its segment, and the other is on a later segment. -/
theorem lineBetween_noRepeat_iff (hf : f.KeepsZero) (hpath : NoRepeat path)
    (hne : (p == q) = false) (ha : @Snap.toLine Float f.trig p path default = .ok a)
    (hb : @Snap.toLine Float f.trig q path default = .ok b)
    (hsnaps : (a.point == b.point) = false) :
    ∃ l : LineString Float, @lineBetween Float f.trig p q path = .ok l
      ∧ (NoRepeat l.points
        ↔ ¬ (a.index < b.index ∧ a.AtEnd path ∨ b.index < a.index ∧ b.AtEnd path)) := by
  refine ⟨_, @lineBetween_eq Float f.trig p q path a b hne ha hb, ?_⟩
  by_cases hle : a.index ≤ b.index
  · have hnot : ¬ b.index < a.index := by omega
    rw [if_pos hle, noRepeat_through_of_toLine hf hpath hb hsnaps hle]
    simp [hnot]
  · have hnot : ¬ a.index < b.index := by omega
    have hsnaps' : (b.point == a.point) = false := by rwa [BEq.comm]
    rw [if_neg hle, noRepeat_through_of_toLine hf hpath ha hsnaps' (by omega)]
    simp [hnot]

theorem lineBetween_noRepeat_iff_of_three_vertices :
    ∃ l : LineString Float,
      @lineBetween Float smallAngles.trig ⟨0, 0, none⟩ ⟨2, 0, none⟩
        [⟨0, 0, none⟩, ⟨1, 0, none⟩, ⟨2, 0, none⟩] = .ok l
      ∧ NoRepeat l.points := by
  have hsnap (p : Point Float) :=
    @Snap.toLine_of_length Float smallAngles.trig [⟨0, 0, none⟩, ⟨1, 0, none⟩, ⟨2, 0, none⟩] p
      default (by decide)
  obtain ⟨l, hl, hiff⟩ := lineBetween_noRepeat_iff (p := ⟨0, 0, none⟩) (q := ⟨2, 0, none⟩)
    smallAngles_keepsZero (by decide +kernel) (by decide +kernel) (hsnap _) (hsnap _)
    (by decide +kernel)
  exact ⟨l, hl, hiff.mpr (by decide +kernel)⟩

/-- A point at a vertex between two segments is taken on the earlier, and then the vertex
is passed once more on the way to the later. -/
theorem lineBetween_repeats_of_vertex :
    ∃ l : LineString Float,
      @lineBetween Float smallAngles.trig ⟨1, 0, none⟩ ⟨2, 0, none⟩
        [⟨0, 0, none⟩, ⟨1, 0, none⟩, ⟨2, 0, none⟩] = .ok l
      ∧ ¬ NoRepeat l.points := by
  have hsnap (p : Point Float) :=
    @Snap.toLine_of_length Float smallAngles.trig [⟨0, 0, none⟩, ⟨1, 0, none⟩, ⟨2, 0, none⟩] p
      default (by decide)
  exact ⟨_, @lineBetween_eq Float smallAngles.trig _ _ _ _ _ (by decide +kernel) (hsnap _)
    (hsnap _), by decide +kernel⟩

end Graticule.Angles
