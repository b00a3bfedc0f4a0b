import Graticule.Proofs.Distance
import Graticule.Proofs.Extremes
import Graticule.Proofs.Flattening
import Graticule.Proofs.RayParity

/-!
# Boxes as regions

In exact arithmetic a box and the polygon drawn from it are the same region. Of the edges
of its ring the level ones are never crossed, and an upright one is crossed from the west of
it, at the latitudes from its lower end up to but not including its upper one. So the
polygon contains the points of the box with its west and south sides and without the
other two.

That is why boxes side by side share no point and leave none out: on a line with sorted
cuts every value between the first and the last is in one of the parts, and a grid is such
a line in both directions.

The least box around the polygon is the box again. So drawing the extent of a value loses
nothing, and doing it twice changes nothing.
-/

namespace Graticule

variable {b : Box Rat} {p : Point Rat}

/-! ## The region of a box -/

namespace Box

/-- The point is in the box, and on none but its west and south sides. -/
def Claims (b : Box Rat) (p : Point Rat) : Prop :=
  b.west ≤ p.longitude ∧ p.longitude < b.east ∧ b.south ≤ p.latitude ∧ p.latitude < b.north

instance (b : Box Rat) (p : Point Rat) : Decidable (b.Claims p) :=
  inferInstanceAs (Decidable (_ ∧ _ ∧ _ ∧ _))

end Box

theorem crossesEdge_of_upright (p : Point Rat) {a v : Point Rat}
    (h : a.longitude = v.longitude) :
    crossesEdge p (a, v)
      = ((above p v != above p a) && decide (p.longitude < v.longitude)) := by
  rw [crossesEdge_eq, longitudeAt, h, sub_self, zero_mul, zero_div, zero_add]

theorem contains_toPolygon (b : Box Rat) (p : Point Rat) :
    b.toPolygon.contains p
      = ((decide (p.latitude < b.north) != decide (p.latitude < b.south))
          && (decide (p.longitude < b.east) != decide (p.longitude < b.west))) := by
  have hcontains : b.toPolygon.contains p = inRing p b.ring := Bool.and_true _
  -- the ring is closed, so its last edge goes from the first corner to itself
  rw [hcontains, Box.ring, inRing_cons]
  simp only [List.cons_append, List.nil_append, walkParity]
  rw [crossesEdge_of_level p (by rfl), crossesEdge_of_upright p (by rfl),
    crossesEdge_of_level p (by rfl), crossesEdge_of_upright p (by rfl), crossesEdge_self]
  simp only [above]
  generalize decide (p.latitude < b.north) = belowNorth
  generalize decide (p.latitude < b.south) = belowSouth
  generalize decide (p.longitude < b.east) = beforeEast
  generalize decide (p.longitude < b.west) = beforeWest
  revert belowNorth belowSouth beforeEast beforeWest
  decide

/-- Of two sides in order, a value is before one and not the other when it is between
them. -/
theorem bne_lt_iff {lo hi v : Rat} (h : lo ≤ hi) :
    (decide (v < hi) != decide (v < lo)) = true ↔ lo ≤ v ∧ v < hi := by
  rw [bne_iff_ne, Ne, decide_eq_decide, ← not_lt]
  constructor
  · intro hne
    by_cases hlo : v < lo
    · exact absurd (iff_of_true (hlo.trans_le h) hlo) hne
    · exact ⟨hlo, Classical.byContradiction fun hhi => hne (iff_of_false hhi hlo)⟩
  · intro ⟨hlo, hhi⟩ hiff
    exact hlo (hiff.mp hhi)

/-- The polygon of a box contains the points that the box claims. -/
theorem contains_toPolygon_iff (hlongitude : b.west ≤ b.east) (hlatitude : b.south ≤ b.north) :
    b.toPolygon.contains p = true ↔ b.Claims p := by
  rw [contains_toPolygon, Bool.and_eq_true, bne_lt_iff hlatitude, bne_lt_iff hlongitude,
    Box.Claims, and_comm, and_assoc]

/-! ## Cuts and grids -/

/-- Some cut is at or before the value, and another after it. -/
def Spans (cuts : List Rat) (v : Rat) : Prop := (∃ a ∈ cuts, a ≤ v) ∧ ∃ z ∈ cuts, v < z

instance (cuts : List Rat) (v : Rat) : Decidable (Spans cuts v) :=
  inferInstanceAs (Decidable (_ ∧ _))

/-- The boxes between columns and rows. -/
def grid (columns rows : List Rat) : List (Box Rat) :=
  (consecutive columns).flatMap fun c =>
    (consecutive rows).map fun r => .ofSides c.1 r.1 c.2 r.2

theorem le_of_mem_consecutive {cuts : List Rat} (h : cuts.Pairwise (· ≤ ·)) :
    ∀ c ∈ consecutive cuts, c.1 ≤ c.2 := by
  induction cuts with
  | nil => simp [consecutive]
  | cons a cuts ih =>
      cases cuts with
      | nil => simp [consecutive]
      | cons z rest =>
          rw [consecutive, List.forall_mem_cons]
          exact ⟨List.rel_of_pairwise_cons h List.mem_cons_self, ih h.of_cons⟩

/-- Of sorted cuts the first decides whether any is at or before a value. -/
theorem spans_cons_iff {a v : Rat} {cuts : List Rat} (h : (a :: cuts).Pairwise (· ≤ ·)) :
    Spans (a :: cuts) v ↔ a ≤ v ∧ ∃ z ∈ cuts, v < z := by
  constructor
  · rintro ⟨⟨w, hw, hwv⟩, z, hz, hvz⟩
    have hav : a ≤ v := by
      rcases List.mem_cons.mp hw with rfl | hw
      · exact hwv
      · exact (List.rel_of_pairwise_cons h hw).trans hwv
    refine ⟨hav, z, (List.mem_cons.mp hz).resolve_left ?_, hvz⟩
    rintro rfl
    exact absurd hvz (not_lt.mpr hav)
  · rintro ⟨hav, z, hz, hvz⟩
    exact ⟨⟨a, List.mem_cons_self, hav⟩, z, List.mem_cons_of_mem _ hz, hvz⟩

/-- Between sorted cuts a value they span is in one part, and any other in none. -/
theorem countP_consecutive {cuts : List Rat} (h : cuts.Pairwise (· ≤ ·)) (v : Rat) :
    (consecutive cuts).countP (fun c => decide (c.1 ≤ v ∧ v < c.2))
      = if Spans cuts v then 1 else 0 := by
  induction cuts with
  | nil => simp [consecutive, Spans]
  | cons a cuts ih =>
      cases cuts with
      | nil => simp [consecutive, spans_cons_iff h]
      | cons z rest =>
          have haz : a ≤ z := List.rel_of_pairwise_cons h List.mem_cons_self
          have hrest := spans_cons_iff (v := v) h.of_cons
          rw [consecutive, List.countP_cons, ih h.of_cons]
          simp only [spans_cons_iff h, hrest, decide_eq_true_eq]
          -- before the second cut only the first part counts, from there on only the others
          rcases lt_or_ge v z with hvz | hzv
          · simp [hvz, not_le.mpr hvz]
          · simp [hzv, not_lt.mpr hzv, haz.trans hzv]

theorem countP_column (c : Rat × Rat) (rows : List (Rat × Rat)) (p : Point Rat) :
    (rows.map fun r => Box.ofSides c.1 r.1 c.2 r.2).countP (fun b => decide (b.Claims p))
      = if c.1 ≤ p.longitude ∧ p.longitude < c.2
          then rows.countP (fun r => decide (r.1 ≤ p.latitude ∧ p.latitude < r.2))
          else 0 := by
  rw [List.countP_map]
  split
  · next hc =>
      refine List.countP_congr fun r _ => ?_
      simp [Box.Claims, Box.ofSides, Box.west, Box.east, Box.south, Box.north, hc]
  · next hc =>
      rw [List.countP_eq_zero]
      intro r _ hr
      obtain ⟨hwest, heast, -⟩ := of_decide_eq_true hr
      exact hc ⟨hwest, heast⟩

/-- A grid is cut in both directions, so the boxes that claim a point are counted in each
direction alone. -/
theorem countP_grid (columns rows : List Rat) (p : Point Rat) :
    (grid columns rows).countP (fun b => decide (b.Claims p))
      = (consecutive columns).countP (fun c => decide (c.1 ≤ p.longitude ∧ p.longitude < c.2))
        * (consecutive rows).countP (fun r => decide (r.1 ≤ p.latitude ∧ p.latitude < r.2)) := by
  unfold grid
  induction consecutive columns with
  | nil => simp
  | cons c cs ih =>
      rw [List.flatMap_cons, List.countP_append, ih, countP_column, List.countP_cons]
      split
      · next hc => simp [hc, add_mul, add_comm]
      · next hc => simp [hc]

theorem ordered_of_mem_grid {columns rows : List Rat} (hcolumns : columns.Pairwise (· ≤ ·))
    (hrows : rows.Pairwise (· ≤ ·)) (h : b ∈ grid columns rows) :
    b.west ≤ b.east ∧ b.south ≤ b.north := by
  obtain ⟨c, hc, h⟩ := List.mem_flatMap.mp h
  obtain ⟨r, hr, rfl⟩ := List.mem_map.mp h
  exact ⟨le_of_mem_consecutive hcolumns c hc, le_of_mem_consecutive hrows r hr⟩

/-- Of the polygons of a grid one contains a point between the outermost cuts, and none any
other. -/
theorem countP_grid_contains {columns rows : List Rat} (hcolumns : columns.Pairwise (· ≤ ·))
    (hrows : rows.Pairwise (· ≤ ·)) (p : Point Rat) :
    (grid columns rows).countP (fun b => b.toPolygon.contains p)
      = if Spans columns p.longitude ∧ Spans rows p.latitude then 1 else 0 := by
  have hcontains : (grid columns rows).countP (fun b => b.toPolygon.contains p)
      = (grid columns rows).countP (fun b => decide (b.Claims p)) := by
    refine List.countP_congr fun b hb => ?_
    obtain ⟨hlongitude, hlatitude⟩ := ordered_of_mem_grid hcolumns hrows hb
    rw [contains_toPolygon_iff hlongitude hlatitude, decide_eq_true_eq]
  rw [hcontains, countP_grid, countP_consecutive hcolumns, countP_consecutive hrows]
  split_ifs <;> simp_all

/-! ## The extent of a box -/

theorem exact_lesser (x y : Rat) : Scalar.lesser x y = min x y := by
  rw [Scalar.lesser, exact_isNaN, min_comm, min_def_lt]
  rfl

theorem exact_greater (x y : Rat) : Scalar.greater x y = max x y := by
  rw [Scalar.greater, exact_isNaN, max_def_lt]
  rfl

theorem around?_ring (hlongitude : b.west ≤ b.east) (hlatitude : b.south ≤ b.north) :
    Box.around? b.ring = some (.ofSides b.west b.south b.east b.north) := by
  rw [Box.ring, Box.around?_cons]
  simp [exact_lesser, exact_greater, hlongitude, hlatitude]

namespace GeoJson

theorem coordinates_toPolygon (b : Box Rat) :
    (geometry (.polygon b.toPolygon)).coordinates false = b.ring := by
  show Geometry.coordinates false (.polygon b.toPolygon) = b.ring
  rw [Geometry.coordinates_eq_flatten]
  rfl

/-- The extent of a box drawn as a polygon is the box, without its altitudes. -/
theorem extent?_toPolygon (hlongitude : b.west ≤ b.east) (hlatitude : b.south ≤ b.north) :
    (geometry (.polygon b.toPolygon)).extent?
      = some (.ofSides b.west b.south b.east b.north) := by
  have hextent : (geometry (.polygon b.toPolygon)).extent?
      = Box.around? ((geometry (.polygon b.toPolygon)).coordinates false) := rfl
  rw [hextent, coordinates_toPolygon, around?_ring hlongitude hlatitude]

/-- A box around points has its sides in order. -/
theorem ordered_of_around? {points : List (Point Rat)} (h : Box.around? points = some b) :
    b.west ≤ b.east ∧ b.south ≤ b.north := by
  have hbounds := Box.around?_bounds h
  obtain ⟨p, hp, -⟩ := List.mem_map.mp hbounds.west.mem
  obtain ⟨hlongitude, hlatitude⟩ := hbounds.within hp
  exact ⟨(hlongitude (exact_isNaN _)).1.trans (hlongitude (exact_isNaN _)).2,
    (hlatitude (exact_isNaN _)).1.trans (hlatitude (exact_isNaN _)).2⟩

/-- The envelope of a value has the extent of the value, and is its own envelope. -/
theorem envelope?_envelope {value : GeoJson Rat} (hbbox : value.bbox? = none)
    (hpoints : value.coordinates false ≠ []) :
    ∃ b area, value.extent? = some b ∧ value.envelope? = some area
      ∧ (geometry (.polygon area)).extent? = some b
      ∧ (geometry (.polygon area)).envelope? = some area := by
  obtain ⟨b, hb⟩ := Box.exists_around? hpoints
  have hextent : value.extent? = some b := by
    rw [extent?, hbbox, ← hb]
  obtain ⟨hlongitude, hlatitude⟩ := ordered_of_around? hb
  have hagain : (geometry (.polygon b.toPolygon)).extent? = some b := by
    rw [extent?_toPolygon hlongitude hlatitude, ← (Box.around?_bounds hb).flat]
  refine ⟨b, b.toPolygon, hextent, ?_, hagain, ?_⟩
  · rw [envelope?, hextent, Option.map_some]
  · rw [envelope?, hagain, Option.map_some]

end GeoJson

/-! ## Boxes and their polygons -/

/-- A box and its polygon are the same region: the polygon contains what the box claims and
has its extent, a grid claims each point it spans once and no other, and the envelope of a
value has the value's extent and is its own envelope. -/
theorem polygon_of_box_is_box :
    (∀ b : Box Rat, b.west ≤ b.east → b.south ≤ b.north → ∀ properties id,
        ∃ area, (b.toFeature properties id).geometry = some (.polygon area)
          ∧ (∀ p, area.contains p = true ↔ b.Claims p)
          ∧ (GeoJson.geometry (.polygon area)).extent?
            = some (.ofSides b.west b.south b.east b.north))
      ∧ (∀ columns rows : List Rat, columns.Pairwise (· ≤ ·) → rows.Pairwise (· ≤ ·) →
          ∀ p, (grid columns rows).countP (fun b => b.toPolygon.contains p)
            = if Spans columns p.longitude ∧ Spans rows p.latitude then 1 else 0)
      ∧ ∀ value : GeoJson Rat, value.bbox? = none → value.coordinates false ≠ [] →
          ∃ b area, value.extent? = some b ∧ value.envelope? = some area
            ∧ (GeoJson.geometry (.polygon area)).extent? = some b
            ∧ (GeoJson.geometry (.polygon area)).envelope? = some area := by
  refine ⟨?_, ?_, ?_⟩
  · intro b hlongitude hlatitude properties id
    exact ⟨b.toPolygon, rfl, fun p => contains_toPolygon_iff hlongitude hlatitude,
      GeoJson.extent?_toPolygon hlongitude hlatitude⟩
  · intro columns rows hcolumns hrows p
    exact countP_grid_contains hcolumns hrows p
  · intro value hbbox hpoints
    exact GeoJson.envelope?_envelope hbbox hpoints

/-- A box contains its southwest corner and not its northeast one, a cut that is made twice
takes nothing from the boxes beside it, and a line has an envelope. -/
theorem polygon_of_box_is_box_at_corners :
    let b : Box Rat := .ofSides 0 1 2 3
    let line : Geometry Rat := .lineString ⟨[⟨4, 1, none⟩, ⟨0, 3, some 7⟩], none⟩
    b.west ≤ b.east ∧ b.south ≤ b.north
      ∧ (∃ area, (b.toFeature [] none).geometry = some (.polygon area)
          ∧ area.contains ⟨0, 1, none⟩ = true ∧ area.contains ⟨2, 3, none⟩ = false)
      ∧ [0, 2, 2, (5 : Rat)].Pairwise (· ≤ ·) ∧ [1, (3 : Rat)].Pairwise (· ≤ ·)
      ∧ (grid [0, 2, 2, 5] [1, 3]).countP (fun b => b.toPolygon.contains ⟨2, 1, none⟩) = 1
      ∧ (GeoJson.geometry line).bbox? = none
      ∧ (GeoJson.geometry line).coordinates false ≠ []
      ∧ ∃ b area, (GeoJson.geometry line).extent? = some b
          ∧ (GeoJson.geometry (.polygon area)).extent? = some b := by
  intro b line
  have hlongitude : b.west ≤ b.east := by decide
  have hlatitude : b.south ≤ b.north := by decide
  have hcolumns : [0, 2, 2, (5 : Rat)].Pairwise (· ≤ ·) := by decide
  have hrows : [1, (3 : Rat)].Pairwise (· ≤ ·) := by decide
  have hpoints : (GeoJson.geometry line).coordinates false ≠ [] := by
    show Geometry.coordinates false line ≠ []
    rw [Geometry.coordinates_eq_flatten]
    exact List.cons_ne_nil _ _
  obtain ⟨hregion, hgrid, henvelope⟩ := polygon_of_box_is_box
  obtain ⟨area, harea, hcontains, -⟩ := hregion b hlongitude hlatitude [] none
  obtain ⟨e, drawn, he, -, hagain, -⟩ := henvelope (.geometry line) rfl hpoints
  refine ⟨hlongitude, hlatitude, ⟨area, harea, ?_, ?_⟩, hcolumns, hrows, ?_, rfl, hpoints,
    e, drawn, he, hagain⟩
  · exact (hcontains _).mpr (by decide)
  · exact Bool.eq_false_iff.mpr ((hcontains _).not.mpr (by decide))
  · rw [hgrid _ _ hcolumns hrows]
    decide

end Graticule
