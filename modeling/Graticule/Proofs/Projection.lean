import Graticule.Planar
import Graticule.Proofs.Binary64.Keys
import Graticule.Proofs.Closing
import Graticule.Proofs.Encoding

/-!
# Projection onto the plane

What comes back from the plane is not what went there. `projected` says, without the plane,
what does: the geometry loses its altitudes and its boxes, a ring whose ends do not meet gets
its first point once more, and a polygon without rings gets one of no points. Two ends meet
when their coordinates are numerically equal, so the ends of a ring never meet if one of them
is not a number, however often it is closed.

With numbers for coordinates projecting is taking a normal form: a second projection changes
nothing. The geometries it leaves alone are those that are `InPlane`, and a sound geometry
without altitudes and boxes is one of them. Its rings end where they start; points are meant
there and coordinates here, and for finite numbers that is the same.
-/

namespace Graticule

variable {α β : Type}

theorem map_eq_self_iff {f : β → β} {xs : List β} : xs.map f = xs ↔ ∀ x ∈ xs, f x = x := by
  conv_lhs => rhs; rw [← List.map_id xs]
  exact List.map_inj_left

/-! ## Projecting rings -/

/-- The point without its altitude. -/
def Point.projected (p : Point α) : Point α := ⟨p.longitude, p.latitude, none⟩

theorem Point.projected_eq_self_iff {p : Point α} : p.projected = p ↔ p.altitude = none := by
  obtain ⟨longitude, latitude, altitude⟩ := p
  simp [projected, eq_comm]

section

variable [Scalar α] {ring : List (Point α)}

/-- Both coordinates are numbers. -/
def Point.IsNumeric (p : Point α) : Prop :=
  Scalar.isNaN p.longitude = false ∧ Scalar.isNaN p.latitude = false

instance (p : Point α) : Decidable p.IsNumeric := inferInstanceAs (Decidable (_ ∧ _))

/-- The first and the last point, if there are any, have numerically equal coordinates. -/
def endsMeet (ring : List (Point α)) : Bool :=
  match ring.head?, ring.getLast? with
  | some first, some last =>
    first.longitude == last.longitude && first.latitude == last.latitude
  | _, _ => true

/-- The ring with its first point once more at its end, unless its ends meet. -/
def closedRing (ring : List (Point α)) : List (Point α) :=
  if endsMeet ring then ring else ring ++ ring.head?.toList

/-- The closed ring, without altitudes. -/
def projectedRing (ring : List (Point α)) : List (Point α) :=
  (closedRing ring).map Point.projected

theorem closedRing_of_endsMeet (h : endsMeet ring = true) : closedRing ring = ring := if_pos h

theorem closedRing_of_not_endsMeet (h : ¬ endsMeet ring = true) :
    ∃ first rest, ring = first :: rest ∧ closedRing ring = first :: (rest ++ [first]) := by
  cases ring with
  | nil => exact absurd rfl h
  | cons first rest => exact ⟨first, rest, rfl, if_neg h⟩

theorem length_closedRing_eq_iff :
    (closedRing ring).length = ring.length ↔ endsMeet ring = true := by
  by_cases hmeet : endsMeet ring = true
  · rw [closedRing_of_endsMeet hmeet]
    exact iff_of_true rfl hmeet
  · obtain ⟨first, rest, rfl, hclosed⟩ := closedRing_of_not_endsMeet hmeet
    rw [hclosed]
    exact iff_of_false (by simp) hmeet

/-- A ring of numbers closes. What is compared in the end is its first point with itself, so a
ring that starts with something else stays open. -/
theorem endsMeet_closedRing (h : ∀ p ∈ ring, p.IsNumeric) :
    endsMeet (closedRing ring) = true := by
  by_cases hmeet : endsMeet ring = true
  · rwa [closedRing_of_endsMeet hmeet]
  · obtain ⟨first, rest, rfl, hclosed⟩ := closedRing_of_not_endsMeet hmeet
    obtain ⟨hlongitude, hlatitude⟩ := h first List.mem_cons_self
    rw [Scalar.isNaN, Bool.not_eq_false'] at hlongitude hlatitude
    have hlast : (first :: (rest ++ [first])).getLast? = some first := by
      rw [← List.cons_append, List.getLast?_concat]
    rw [hclosed, endsMeet, hlast, List.head?_cons]
    exact Bool.and_eq_true_iff.mpr ⟨hlongitude, hlatitude⟩

theorem endsMeet_map_projected (ring : List (Point α)) :
    endsMeet (ring.map Point.projected) = endsMeet ring := by
  rw [endsMeet, endsMeet, List.head?_map, List.getLast?_map]
  cases ring.head? <;> cases ring.getLast? <;> rfl

theorem projectedRing_eq_self_iff :
    projectedRing ring = ring
      ↔ endsMeet ring = true ∧ ∀ p ∈ ring, p.altitude = none := by
  have hmapped (hmeet : endsMeet ring = true) :
      projectedRing ring = ring ↔ ∀ p ∈ ring, p.altitude = none := by
    rw [projectedRing, closedRing_of_endsMeet hmeet, map_eq_self_iff]
    exact forall₂_congr fun _ _ => Point.projected_eq_self_iff
  constructor
  · intro h
    -- closing would have made the ring longer
    have hlength : (closedRing ring).length = ring.length := by
      conv_rhs => rw [← h, projectedRing, List.length_map]
    have hmeet := length_closedRing_eq_iff.mp hlength
    exact ⟨hmeet, (hmapped hmeet).mp h⟩
  · intro ⟨hmeet, hlevel⟩
    exact (hmapped hmeet).mpr hlevel

theorem projectedRing_projectedRing (h : ∀ p ∈ ring, p.IsNumeric) :
    projectedRing (projectedRing ring) = projectedRing ring := by
  refine projectedRing_eq_self_iff.mpr ⟨?_, fun p hp => ?_⟩
  · rw [projectedRing, endsMeet_map_projected, endsMeet_closedRing h]
  · obtain ⟨q, -, rfl⟩ := List.mem_map.mp hp
    rfl

/-! ## Projecting geometries -/

/-- The line without altitudes and box. -/
def LineString.projected (l : LineString α) : LineString α :=
  ⟨l.points.map Point.projected, none⟩

/-- The polygon with its rings projected, and with one ring at least. -/
def Polygon.projected (p : Polygon α) : Polygon α :=
  match p.rings with
  | [] => ⟨[[]], none⟩
  | rings => ⟨rings.map projectedRing, none⟩

namespace Geometry

mutual

/-- The geometry with all its points, lines and polygons projected and without boxes. -/
def projected : Geometry α → Geometry α
  | .point p => .point p.projected
  | .multiPoint ps _ => .multiPoint (ps.map Point.projected)
  | .lineString l => .lineString l.projected
  | .multiLineString ls _ => .multiLineString (ls.map LineString.projected)
  | .polygon p => .polygon p.projected
  | .multiPolygon ps _ => .multiPolygon (ps.map Polygon.projected)
  | .collection members _ => .collection (projectedAll members)

/-- Several geometries, each projected. -/
def projectedAll : List (Geometry α) → List (Geometry α)
  | [] => []
  | g :: rest => projected g :: projectedAll rest

end

end Geometry

/-! ## To the plane and back -/

namespace Planar

theorem close_positions (ring : List (Point α)) :
    close (positions ring) = positions (closedRing ring) := by
  rw [close, positions, List.head?_map, List.getLast?_map, closedRing, endsMeet]
  cases ring.head? with
  | none => rfl
  | some first =>
      cases ring.getLast? with
      | none => rfl
      | some last =>
          show (if (first.longitude == last.longitude && first.latitude == last.latitude) = true
            then ring.map Position.ofPoint else ring.map Position.ofPoint ++ [.ofPoint first]) = _
          rw [positions, apply_ite (List.map Position.ofPoint), List.map_append]
          rfl

omit [Scalar α] in
theorem points_positions (ps : List (Point α)) :
    points (positions ps) = ps.map Point.projected := by
  rw [points, positions, List.map_map]
  rfl

theorem points_close_positions (ring : List (Point α)) :
    points (close (positions ring)) = projectedRing ring := by
  rw [close_positions, points_positions, projectedRing]

theorem Polygon.toPolygon_ofPolygon (p : Graticule.Polygon α) :
    (Polygon.ofPolygon p).toPolygon = p.projected := by
  obtain ⟨rings, bbox⟩ := p
  cases rings with
  | nil => rfl
  | cons outer holes =>
      show Graticule.Polygon.mk (points (close (positions outer))
        :: ((holes.map positions).map close).map points) none = _
      simp only [List.map_map, Function.comp_def, points_close_positions]
      rfl

mutual

theorem toGeometry_ofGeometry (g : Geometry α) : (ofGeometry g).toGeometry = g.projected := by
  match g with
  | .point p => rfl
  | .multiPoint ps _ => rw [ofGeometry, toGeometry, points_positions, Geometry.projected]
  | .lineString l =>
      rw [ofGeometry, toGeometry, points_positions]
      rfl
  | .multiLineString ls _ =>
      simp only [ofGeometry, toGeometry, List.map_map, Function.comp_def, points_positions]
      rfl
  | .polygon p =>
      rw [ofGeometry, toGeometry, Polygon.toPolygon_ofPolygon, Geometry.projected]
  | .multiPolygon ps _ =>
      simp only [ofGeometry, toGeometry, Geometry.projected, List.map_map, Function.comp_def,
        Polygon.toPolygon_ofPolygon]
  | .collection members _ =>
      rw [ofGeometry, toGeometry, toGeometries_ofGeometries members, Geometry.projected]

theorem toGeometries_ofGeometries (gs : List (Geometry α)) :
    toGeometries (ofGeometries gs) = Geometry.projectedAll gs := by
  match gs with
  | [] => rfl
  | g :: rest =>
      rw [ofGeometries, toGeometries, toGeometry_ofGeometry g, toGeometries_ofGeometries rest,
        Geometry.projectedAll]

end

end Planar

/-! ## Projecting twice -/

omit [Scalar α] in
theorem LineString.projected_projected (l : LineString α) :
    l.projected.projected = l.projected := by
  rw [projected, projected, List.map_map]
  rfl

theorem Polygon.projected_of_ne_nil {p : Polygon α} (h : p.rings ≠ []) :
    p.projected = ⟨p.rings.map projectedRing, none⟩ := by
  obtain ⟨rings, bbox⟩ := p
  cases rings with
  | nil => exact absurd rfl h
  | cons outer holes => rfl

theorem Polygon.projected_projected {p : Polygon α}
    (h : ∀ ring ∈ p.rings, ∀ q ∈ ring, q.IsNumeric) : p.projected.projected = p.projected := by
  by_cases hrings : p.rings = []
  · obtain ⟨rings, bbox⟩ := p
    subst hrings
    rfl
  · have hmap : p.rings.map projectedRing ≠ [] := fun hnil => hrings (List.map_eq_nil_iff.mp hnil)
    rw [projected_of_ne_nil hrings, projected_of_ne_nil hmap, List.map_map]
    congr 1
    exact List.map_congr_left fun ring hring => projectedRing_projectedRing (h ring hring)

omit [Scalar α] in
theorem LineString.projected_eq_self_iff {l : LineString α} :
    l.projected = l ↔ l.bbox = none ∧ ∀ p ∈ l.points, p.altitude = none := by
  obtain ⟨points, bbox⟩ := l
  rw [projected, mk.injEq, map_eq_self_iff, @eq_comm _ none bbox, and_comm]
  simp only [Point.projected_eq_self_iff]

theorem Polygon.projected_eq_self_iff {p : Polygon α} :
    p.projected = p ↔ p.bbox = none ∧ p.rings ≠ []
      ∧ ∀ ring ∈ p.rings, endsMeet ring = true ∧ ∀ q ∈ ring, q.altitude = none := by
  obtain ⟨rings, bbox⟩ := p
  cases rings with
  | nil => exact iff_of_false (by simp [projected]) fun h => h.2.1 rfl
  | cons outer holes =>
      have hrings : outer :: holes ≠ [] := List.cons_ne_nil outer holes
      rw [projected_of_ne_nil hrings, mk.injEq, map_eq_self_iff, @eq_comm _ none bbox, and_comm,
        and_iff_right hrings]
      simp only [projectedRing_eq_self_iff]

namespace Geometry

theorem projectedAll_eq_map (gs : List (Geometry α)) : projectedAll gs = gs.map projected := by
  induction gs with
  | nil => rfl
  | cons g rest ih => rw [projectedAll, ih, List.map_cons]

theorem projected_collection (members : List (Geometry α)) (bbox : Option (Box α)) :
    (collection members bbox).projected = collection (members.map projected) := by
  rw [projected, projectedAll_eq_map]

/-- Once all rings are closed nothing is left to do. -/
theorem projected_projected {g : Geometry α}
    (h : ∀ a ∈ g.areas, ∀ ring ∈ a.rings, ∀ p ∈ ring, p.IsNumeric) :
    g.projected.projected = g.projected := by
  induction g using nested_induction with
  | leaf g hg =>
      rw [areas_of_ne_collection hg] at h
      cases g with
      | point p => rfl
      | multiPoint ps bbox =>
          rw [projected, projected, List.map_map]
          rfl
      | lineString l => rw [projected, projected, l.projected_projected]
      | multiLineString ls bbox =>
          rw [projected, projected, List.map_map]
          congr 1
          exact List.map_congr_left fun l _ => l.projected_projected
      | polygon p =>
          rw [projected, projected, Polygon.projected_projected (h p List.mem_cons_self)]
      | multiPolygon ps bbox =>
          rw [projected, projected, List.map_map]
          congr 1
          exact List.map_congr_left fun p hp => Polygon.projected_projected (h p hp)
      | collection members bbox => exact (hg members bbox rfl).elim
  | collection members bbox ih =>
      rw [projected_collection, projected_collection, List.map_map]
      congr 1
      refine List.map_congr_left fun g hg => ih g hg fun a ha => h a ?_
      rw [areas_collection]
      exact List.mem_flatMap.mpr ⟨g, hg, ha⟩

/-! ## Geometries in the plane -/

/-- Nothing of the geometry is lost in the plane, and nothing added. -/
@[mk_iff]
structure InPlane (g : Geometry α) : Prop where
  /-- No point has an altitude. -/
  level : ∀ p ∈ g.coordinates false, p.altitude = none
  /-- No place for a box has one. -/
  unboxed : ∀ b ∈ g.places, b = none
  /-- Nor does an inner place. -/
  unboxedInside : ∀ b ∈ g.innerPlaces, b = none
  /-- Every polygon has an outer ring. -/
  bounded : ∀ a ∈ g.areas, a.rings ≠ []
  /-- The ends of every ring meet. -/
  closed : ∀ a ∈ g.areas, ∀ ring ∈ a.rings, endsMeet ring = true

theorem inPlane_collection {members : List (Geometry α)} {bbox : Option (Box α)} :
    (collection members bbox).InPlane ↔ bbox = none ∧ ∀ g ∈ members, g.InPlane := by
  simp only [inPlane_iff, coordinates_eq_flatten, flatten_collection, areas_collection, places,
    innerPlaces, placesAll_eq, innerPlacesAll_eq, List.forall_mem_flatMap, List.forall_mem_cons]
  grind

theorem projected_eq_self_iff (g : Geometry α) : g.projected = g ↔ g.InPlane := by
  induction g using nested_induction with
  | leaf g hg =>
      rw [inPlane_iff, areas_of_ne_collection hg, coordinates_eq_flatten]
      cases g with
      | point p =>
          simp [projected, Point.projected_eq_self_iff, flatten, leafAreas, places, innerPlaces]
      | multiPoint ps bbox =>
          simp [projected, map_eq_self_iff, Point.projected_eq_self_iff, flatten, leafAreas,
            places, innerPlaces, @eq_comm _ none bbox]
      | lineString l =>
          simp [projected, LineString.projected_eq_self_iff, flatten, leafAreas, places,
            innerPlaces, and_comm]
      | multiLineString ls bbox =>
          simp only [projected, multiLineString.injEq, map_eq_self_iff,
            LineString.projected_eq_self_iff, flatten, id_eq, leafAreas, places, innerPlaces,
            List.forall_mem_flatMap, List.forall_mem_map, List.forall_mem_singleton]
          grind
      | polygon p =>
          simp only [projected, polygon.injEq, Polygon.projected_eq_self_iff, flatten, leafAreas,
            places, innerPlaces, ringPart, List.forall_mem_flatMap, List.forall_mem_singleton]
          grind
      | multiPolygon ps bbox =>
          simp only [projected, multiPolygon.injEq, map_eq_self_iff,
            Polygon.projected_eq_self_iff, flatten, leafAreas, places, innerPlaces, ringPart,
            List.forall_mem_flatMap, List.forall_mem_map, List.forall_mem_singleton]
          grind
      | collection members bbox => exact (hg members bbox rfl).elim
  | collection members bbox ih =>
      rw [projected_collection, inPlane_collection, collection.injEq, map_eq_self_iff,
        @eq_comm _ none bbox, and_comm]
      exact and_congr_right fun _ => forall₂_congr ih

end Geometry

end

/-! ## Sound geometries -/

theorem Binary64.beq_of_same {x y : Float} (h : Scalar.same x y = true)
    (hx : Scalar.isFinite x = true) : (x == y) = true := by
  rcases Binary64.same_iff_equal.mp h with hequal | ⟨hnan, -⟩
  · exact hequal
  · exact absurd hnan (not_isNaN_of_isFinite (scalar_isFinite_iff.mp hx))

/-- Points that are equal have numerically equal coordinates, if these are finite. -/
theorem endsMeet_of_beq {ring : List (Point Float)} (hfinite : ∀ p ∈ ring, p.isFinite = true)
    (h : (ring.head? == ring.getLast?) = true) : endsMeet ring = true := by
  cases ring with
  | nil => rfl
  | cons first rest =>
      rw [List.getLast?_eq_getLast_of_ne_nil (List.cons_ne_nil first rest)] at h
      obtain ⟨hlongitude, hlatitude, -⟩ := Point.beq_iff.mp h
      have hfirst := hfinite first List.mem_cons_self
      simp only [Point.isFinite, Bool.and_eq_true] at hfirst
      rw [endsMeet, List.getLast?_eq_getLast_of_ne_nil (List.cons_ne_nil first rest)]
      exact Bool.and_eq_true_iff.mpr ⟨Binary64.beq_of_same hlongitude hfirst.1.1,
        Binary64.beq_of_same hlatitude hfirst.1.2⟩

namespace Geometry

theorem Sound.inPlane {g : Geometry Float} (h : g.Sound)
    (hlevel : ∀ p ∈ g.coordinates false, p.altitude = none) (hplaces : ∀ b ∈ g.places, b = none)
    (hinner : ∀ b ∈ g.innerPlaces, b = none) : g.InPlane := by
  refine ⟨hlevel, hplaces, hinner, h.bounded, fun a ha ring hring => ?_⟩
  refine endsMeet_of_beq (fun p hp => ?_) (h.closed a ha ring hring).2
  exact h.finite p (mem_coordinates_of_mem_ring ha hring hp)

end Geometry

/-- What comes back from the plane is the projected geometry. If its coordinates are numbers,
going there once more changes nothing; and a geometry that is found valid, without altitudes
and boxes, comes back as it was. -/
theorem Planar.there_and_back (g : Geometry Float) :
    (ofGeometry g).toGeometry = g.projected
      ∧ ((∀ p ∈ g.coordinates false, p.IsNumeric) →
        (ofGeometry (ofGeometry g).toGeometry).toGeometry = (ofGeometry g).toGeometry)
      ∧ (g.validate.isValid = true → (∀ p ∈ g.coordinates false, p.altitude = none) →
        (∀ b ∈ g.places, b = none) → (∀ b ∈ g.innerPlaces, b = none) →
          (ofGeometry g).toGeometry = g) := by
  refine ⟨toGeometry_ofGeometry g, fun hnumeric => ?_, fun hvalid hlevel hplaces hinner => ?_⟩
  · rw [toGeometry_ofGeometry, toGeometry_ofGeometry]
    exact Geometry.projected_projected fun a ha ring hring p hp =>
      hnumeric p (Geometry.mem_coordinates_of_mem_ring ha hring hp)
  · rw [toGeometry_ofGeometry, Geometry.projected_eq_self_iff]
    exact (Geometry.isValid_iff.mp hvalid).inPlane hlevel hplaces hinner

/-- A collection with an open ring, boxes, an altitude and a polygon without rings, and a valid
one whose ring is closed by the other zero. -/
theorem Planar.there_and_back_of_collections :
    let box : Box Float := .ofSides 0 0 4 4
    let ragged : Geometry Float := .collection
      [.polygon ⟨[[⟨0, 0, some 7⟩, ⟨4, 0, none⟩, ⟨4, 4, none⟩]], some box⟩,
        .collection [.multiPolygon [⟨[], some box⟩] none, .point ⟨5, 5, some 1⟩] none] (some box)
    let level : Geometry Float := .collection
      [.polygon ⟨[[⟨0, 0, none⟩, ⟨4, 0, none⟩, ⟨4, 4, none⟩, ⟨0, 0, none⟩]], none⟩,
        .collection [.multiPolygon [⟨[[]], none⟩] none, .point ⟨5, 5, none⟩] none] none
    let sound : Geometry Float := .collection
      [.collection [.polygon ⟨[[⟨0, 0, none⟩, ⟨4, 0, none⟩, ⟨4, 4, none⟩, ⟨-0, 0, none⟩]], none⟩]]
    (∀ p ∈ ragged.coordinates false, p.IsNumeric) ∧ (ofGeometry ragged).toGeometry = level
      ∧ (ofGeometry level).toGeometry = level
      ∧ sound.validate.isValid = true ∧ (∀ p ∈ sound.coordinates false, p.altitude = none)
      ∧ (∀ b ∈ sound.places, b = none) ∧ (∀ b ∈ sound.innerPlaces, b = none)
      ∧ (ofGeometry sound).toGeometry = sound := by
  intro box ragged level sound
  have hnumeric : ∀ p ∈ ragged.coordinates false, p.IsNumeric := by
    rw [Geometry.coordinates_eq_flatten]
    decide +kernel
  have hlevel : (ofGeometry ragged).toGeometry = level := by
    rw [(there_and_back ragged).1]
    rfl
  have hvalid : sound.validate.isValid = true := by
    rw [Geometry.validate_eq, Geometry.flaws_eq]
    decide +kernel
  have haltitudes : ∀ p ∈ sound.coordinates false, p.altitude = none := by
    rw [Geometry.coordinates_eq_flatten]
    decide +kernel
  have hplaces : ∀ b ∈ sound.places, b = none := by
    simp [sound, Geometry.places, Geometry.placesAll]
  have hinner : ∀ b ∈ sound.innerPlaces, b = none := by
    simp [sound, Geometry.innerPlaces, Geometry.innerPlacesAll]
  have htwice := (there_and_back ragged).2.1 hnumeric
  rw [hlevel] at htwice
  exact ⟨hnumeric, hlevel, htwice, hvalid, haltitudes, hplaces, hinner,
    (there_and_back sound).2.2 hvalid haltitudes hplaces hinner⟩

end Graticule
