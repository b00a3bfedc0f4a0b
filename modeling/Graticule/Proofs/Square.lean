import Graticule.Proofs.RealSphere
import Graticule.Extent

/-!
# Where a box widened to a square covers the box

A box is widened along its shorter side, until both sides span the same number of
degrees, and the shorter side is the one that is shorter on the sphere. A side
along a meridian is as long as its degrees say. A side along a parallel is never
longer than that, but it is shorter the closer the parallel is to a pole, and past
half a turn it is measured the other way around.

So the two orders agree in one direction. A box whose southern side is the longer
one on the sphere is wider in degrees, and is widened north and south. But a box
that is wider in degrees may have the shorter side in the south, and then the width
it is given is less than its own: `square_covers_iff` says which boxes these are.
-/

namespace Graticule

namespace Box

open Sphere

/-- A box reaches as far as another one on every side. -/
def Covers (outer inner : Box ℝ) : Prop :=
  outer.west ≤ inner.west ∧ outer.south ≤ inner.south ∧ inner.east ≤ outer.east
    ∧ inner.north ≤ outer.north

/-! ## The two sides -/

/-- The southern side of a box, from west to east. -/
noncomputable def southernSide (b : Box ℝ) : ℝ :=
  distance b.southwest ⟨b.east, b.south, none⟩ default

/-- The western side of a box, from south to north. -/
noncomputable def westernSide (b : Box ℝ) : ℝ :=
  distance (⟨b.west, b.south, none⟩ : Point ℝ) ⟨b.west, b.north, none⟩ default

theorem square_eq (b : Box ℝ) :
    b.square = if b.westernSide ≤ b.southernSide then
        ofSides b.west ((b.south + b.north) / 2 - (b.east - b.west) / 2) b.east
          ((b.south + b.north) / 2 + (b.east - b.west) / 2)
      else
        ofSides ((b.west + b.east) / 2 - (b.north - b.south) / 2) b.south
          ((b.west + b.east) / 2 + (b.north - b.south) / 2) b.north := rfl

theorem haversine_southernSide (b : Box ℝ) :
    haversine b.southwest ⟨b.east, b.south, none⟩
      = (Real.cos (rad b.south) * Real.sin (rad (b.east - b.west) / 2)) ^ 2 := by
  have hzero : rad (b.south - b.south) = 0 := by rw [rad, sub_self, zero_mul]
  show Real.sin (rad (b.south - b.south) / 2) ^ 2
    + Real.sin (rad (b.east - b.west) / 2) ^ 2 * Real.cos (rad b.south)
      * Real.cos (rad b.south) = _
  rw [hzero, zero_div, Real.sin_zero]
  ring

theorem haversine_westernSide (b : Box ℝ) :
    haversine ⟨b.west, b.south, none⟩ ⟨b.west, b.north, none⟩
      = Real.sin (rad (b.north - b.south) / 2) ^ 2 := by
  have hzero : rad (b.west - b.west) = 0 := by rw [rad, sub_self, zero_mul]
  rw [haversine, hzero, zero_div, Real.sin_zero]
  ring

/-! ## Boxes on the globe -/

/-- The corners of a box are positions on the globe, and in order. -/
structure OnGlobe (b : Box ℝ) : Prop where
  west_ge : -180 ≤ b.west
  west_le_east : b.west ≤ b.east
  east_le : b.east ≤ 180
  south_ge : -90 ≤ b.south
  south_le_north : b.south ≤ b.north
  north_le : b.north ≤ 90

namespace OnGlobe

variable {b : Box ℝ}

theorem cos_south_nonneg (h : OnGlobe b) : 0 ≤ Real.cos (rad b.south) := by
  have hlow : rad (-90) ≤ rad b.south := rad_le_rad_iff.mpr h.south_ge
  have hhigh : rad b.south ≤ rad 90 :=
    rad_le_rad_iff.mpr (h.south_le_north.trans h.north_le)
  refine Real.cos_nonneg_of_neg_pi_div_two_le_of_le (le_of_eq_of_le ?_ hlow)
    (hhigh.trans_eq ?_)
  · unfold rad
    ring
  · unfold rad
    ring

theorem half_width_bounds (h : OnGlobe b) :
    0 ≤ rad (b.east - b.west) / 2 ∧ rad (b.east - b.west) / 2 ≤ Real.pi := by
  have hlow : rad 0 ≤ rad (b.east - b.west) :=
    rad_le_rad_iff.mpr (sub_nonneg.mpr h.west_le_east)
  have hhigh : rad (b.east - b.west) ≤ rad 360 :=
    rad_le_rad_iff.mpr (by linarith [h.east_le, h.west_ge])
  have hzero : rad 0 = 0 := zero_mul _
  have hturn : rad 360 = 2 * Real.pi := by
    unfold rad
    ring
  constructor <;> linarith

theorem half_height_bounds (h : OnGlobe b) :
    0 ≤ rad (b.north - b.south) / 2 ∧ rad (b.north - b.south) / 2 ≤ Real.pi / 2 := by
  have hlow : rad 0 ≤ rad (b.north - b.south) :=
    rad_le_rad_iff.mpr (sub_nonneg.mpr h.south_le_north)
  have hhigh : rad (b.north - b.south) ≤ rad 180 :=
    rad_le_rad_iff.mpr (by linarith [h.north_le, h.south_ge])
  have hzero : rad 0 = 0 := zero_mul _
  have hturn : rad 180 = Real.pi := by
    unfold rad
    ring
  constructor <;> linarith

theorem sin_half_width_nonneg (h : OnGlobe b) : 0 ≤ Real.sin (rad (b.east - b.west) / 2) :=
  Real.sin_nonneg_of_nonneg_of_le_pi h.half_width_bounds.1 h.half_width_bounds.2

theorem sin_half_height_nonneg (h : OnGlobe b) :
    0 ≤ Real.sin (rad (b.north - b.south) / 2) := by
  obtain ⟨hlow, hhigh⟩ := h.half_height_bounds
  exact Real.sin_nonneg_of_nonneg_of_le_pi hlow (by linarith [Real.pi_pos])

/-- The two sides compare as half their chords do. -/
theorem westernSide_le_southernSide_iff (h : OnGlobe b) :
    b.westernSide ≤ b.southernSide
      ↔ Real.sin (rad (b.north - b.south) / 2)
        ≤ Real.cos (rad b.south) * Real.sin (rad (b.east - b.west) / 2) := by
  have hsouth := mul_nonneg h.cos_south_nonneg h.sin_half_width_nonneg
  have hwest := h.sin_half_height_nonneg
  have hsouth' : Real.cos (rad b.south) * Real.sin (rad (b.east - b.west) / 2) ≤ 1 :=
    mul_le_one₀ (Real.cos_le_one _) h.sin_half_width_nonneg (Real.sin_le_one _)
  rw [westernSide, southernSide, distance_le_distance_iff, haversine_westernSide,
    haversine_southernSide, sq_le_sq₀ hwest hsouth]
  · rw [haversine_westernSide]
    exact ⟨sq_nonneg _, pow_le_one₀ hwest (Real.sin_le_one _)⟩
  · rw [haversine_southernSide]
    exact ⟨sq_nonneg _, pow_le_one₀ hsouth hsouth'⟩

/-- A box whose southern side is the longer one on the sphere is wider in degrees. -/
theorem height_le_width (h : OnGlobe b) (hle : b.westernSide ≤ b.southernSide) :
    b.north - b.south ≤ b.east - b.west := by
  by_contra hlt
  have hlt : rad (b.east - b.west) < rad (b.north - b.south) :=
    lt_of_not_ge fun hge => hlt (rad_le_rad_iff.mp hge)
  have hsin : Real.sin (rad (b.east - b.west) / 2) < Real.sin (rad (b.north - b.south) / 2) := by
    refine Real.sin_lt_sin_of_lt_of_le_pi_div_two ?_ h.half_height_bounds.2 (by linarith)
    linarith [h.half_width_bounds.1, Real.pi_pos]
  have hcos : Real.cos (rad b.south) * Real.sin (rad (b.east - b.west) / 2)
      ≤ Real.sin (rad (b.east - b.west) / 2) :=
    mul_le_of_le_one_left h.sin_half_width_nonneg (Real.cos_le_one _)
  have hsides := h.westernSide_le_southernSide_iff.mp hle
  linarith

end OnGlobe

/-! ## The square -/

theorem square_spans (b : Box ℝ) :
    b.square.east - b.square.west = b.square.north - b.square.south := by
  rw [square_eq]
  split
  · show b.east - b.west = _ - _
    simp only [ofSides, north, south]
    ring
  · show _ - _ = b.north - b.south
    simp only [ofSides, east, west]
    ring

theorem covers_of_westernSide_le {b : Box ℝ} (h : OnGlobe b)
    (hle : b.westernSide ≤ b.southernSide) : b.square.Covers b := by
  have hheight := h.height_le_width hle
  rw [square_eq, if_pos hle]
  refine ⟨le_rfl, ?_, le_rfl, ?_⟩
  · show (b.south + b.north) / 2 - (b.east - b.west) / 2 ≤ b.south
    linarith
  · show b.north ≤ (b.south + b.north) / 2 + (b.east - b.west) / 2
    linarith

theorem covers_iff_of_southernSide_lt {b : Box ℝ} (hlt : ¬ b.westernSide ≤ b.southernSide) :
    b.square.Covers b ↔ b.east - b.west ≤ b.north - b.south := by
  rw [square_eq, if_neg hlt]
  constructor
  · rintro ⟨hwest, -, -, -⟩
    have hwest : (b.west + b.east) / 2 - (b.north - b.south) / 2 ≤ b.west := hwest
    linarith
  · intro hwidth
    refine ⟨?_, le_rfl, ?_, le_rfl⟩
    · show (b.west + b.east) / 2 - (b.north - b.south) / 2 ≤ b.west
      linarith
    · show b.east ≤ (b.west + b.east) / 2 + (b.north - b.south) / 2
      linarith

/-- A box widened to a square spans the same number of degrees both ways. It covers
the box exactly when the box is no wider than tall in degrees, or its southern side
is no shorter than the western one on the sphere. -/
theorem square_covers_iff (b : Box ℝ) (h : OnGlobe b) :
    b.square.east - b.square.west = b.square.north - b.square.south
      ∧ (b.square.Covers b ↔ b.east - b.west ≤ b.north - b.south
        ∨ Real.sin (rad (b.north - b.south) / 2)
          ≤ Real.cos (rad b.south) * Real.sin (rad (b.east - b.west) / 2)) := by
  refine ⟨square_spans b, ?_⟩
  rw [← h.westernSide_le_southernSide_iff]
  by_cases hle : b.westernSide ≤ b.southernSide
  · exact iff_of_true (covers_of_westernSide_le h hle) (.inr hle)
  · rw [covers_iff_of_southernSide_lt hle, or_iff_left hle]

/-- Half of the band around the equator: it is wider than tall in degrees, and its southern
side is longer on the sphere as well. -/
theorem square_covers_iff_of_equatorial_band :
    let b : Box ℝ := ofSides (-90) (-10) 90 10
    OnGlobe b ∧ ¬ b.east - b.west ≤ b.north - b.south
      ∧ b.square.east - b.square.west = b.square.north - b.square.south
      ∧ b.square.Covers b := by
  intro b
  have hglobe : OnGlobe b := by
    constructor <;> simp only [b, ofSides, west, east, south, north] <;> norm_num
  have hwide : ¬ b.east - b.west ≤ b.north - b.south := by
    simp only [b, ofSides, west, east, south, north]
    norm_num
  have hwidth : rad (b.east - b.west) / 2 = Real.pi / 2 := by
    simp only [b, ofSides, east, west, rad]
    ring
  have hheight : rad (b.north - b.south) / 2 = Real.pi / 18 := by
    simp only [b, ofSides, north, south, rad]
    ring
  have hsouth : rad b.south = -(Real.pi / 18) := by
    simp only [b, ofSides, south, rad]
    ring
  have hpi := Real.pi_pos
  have hsides : Real.sin (rad (b.north - b.south) / 2)
      ≤ Real.cos (rad b.south) * Real.sin (rad (b.east - b.west) / 2) := by
    rw [hwidth, hheight, hsouth, Real.sin_pi_div_two, mul_one, Real.cos_neg,
      ← Real.sin_pi_div_two_sub]
    exact Real.sin_le_sin_of_le_of_le_pi_div_two (by linarith) (by linarith) (by linarith)
  obtain ⟨hspans, hcovers⟩ := square_covers_iff b hglobe
  exact ⟨hglobe, hwide, hspans, hcovers.mpr (.inr hsides)⟩

/-- A box in the north, twenty degrees wide and ten tall. Its southern side is at
sixty degrees, where a degree of longitude is half as long as one of latitude along
the parallel, and the great circle is shorter still. -/
theorem square_not_covers_of_northern_box :
    let b : Box ℝ := ofSides 0 60 20 70
    OnGlobe b ∧ b.square = ofSides 5 60 15 70 ∧ ¬ b.square.Covers b := by
  intro b
  have hglobe : OnGlobe b := by
    constructor <;> simp only [b, ofSides, west, east, south, north] <;> norm_num
  have hlt : ¬ b.westernSide ≤ b.southernSide := by
    rw [hglobe.westernSide_le_southernSide_iff]
    have hwidth : rad (b.east - b.west) / 2 = 2 * (Real.pi / 36) := by
      simp only [b, ofSides, east, west, rad]
      ring
    have hheight : rad (b.north - b.south) / 2 = Real.pi / 36 := by
      simp only [b, ofSides, north, south, rad]
      ring
    have hsouth : rad b.south = Real.pi / 3 := by
      simp only [b, ofSides, south, rad]
      ring
    have hpi := Real.pi_pos
    have hsin : 0 < Real.sin (Real.pi / 36) :=
      Real.sin_pos_of_pos_of_lt_pi (by linarith) (by linarith)
    have hcos : Real.cos (Real.pi / 36) < 1 := by
      rw [← Real.cos_zero]
      exact Real.cos_lt_cos_of_nonneg_of_le_pi le_rfl (by linarith) (by linarith)
    rw [hwidth, hheight, hsouth, Real.cos_pi_div_three, Real.sin_two_mul, not_le]
    calc 1 / 2 * (2 * Real.sin (Real.pi / 36) * Real.cos (Real.pi / 36))
        = Real.sin (Real.pi / 36) * Real.cos (Real.pi / 36) := by ring
      _ < Real.sin (Real.pi / 36) := mul_lt_of_lt_one_right hsin hcos
  refine ⟨hglobe, ?_, ?_⟩
  · rw [square_eq, if_neg hlt]
    simp only [b, ofSides, west, east, south, north]
    norm_num
  · rw [covers_iff_of_southernSide_lt hlt]
    simp only [b, ofSides, west, east, south, north]
    norm_num

end Box

end Graticule
