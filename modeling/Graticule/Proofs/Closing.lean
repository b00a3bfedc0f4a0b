import Graticule.Proofs.Binary64.Extent
import Graticule.Proofs.Equality
import Graticule.Proofs.Validity

/-!
# Closing points

A geometry has points of its own, points on lines and points on rings, and only for those on
rings does it matter whether last points are left out. `perm_rings` parts them from the
others, at any depth, and from there on the question is one about a list of rings.

Leaving out a last point is done without looking at it. In a sound geometry it is equal to
the first point of its ring, which stays, since a sound ring has more points than these two.
So one point is left out for each ring and no position is lost, and a least box, which goes
by positions alone, is the same.
-/

namespace Graticule

variable {α γ : Type}

/-! ## Rings -/

theorem ringPoints_subset (rings : List (List (Point α))) :
    ringPoints true rings ⊆ ringPoints false rings := by
  intro p hp
  obtain ⟨ring, hring, hp⟩ := List.mem_flatMap.mp hp
  exact List.mem_flatMap.mpr ⟨ring, hring, List.dropLast_subset ring hp⟩

/-- One point is left out for each ring that has any. -/
theorem length_ringPoints {rings : List (List (Point α))} (h : ∀ ring ∈ rings, ring ≠ []) :
    (ringPoints false rings).length = (ringPoints true rings).length + rings.length := by
  induction rings with
  | nil => rfl
  | cons ring rest ih =>
      obtain ⟨hring, hrest⟩ := List.forall_mem_cons.mp h
      have hpos := List.length_pos_iff.mpr hring
      have hlength := ih hrest
      simp only [ringPoints, List.flatMap_cons, List.length_append, List.length_cons,
        List.length_dropLast, if_true, Bool.false_eq_true, if_false] at hlength ⊢
      omega

/-- In a ring that ends where it starts, and has another point, every point is equal to one
that is not the last. -/
theorem exists_mem_dropLast [Scalar α] [Scalar.LawfulSame α] {ring : List (Point α)}
    (hlength : 2 ≤ ring.length) (hclosed : (ring.head? == ring.getLast?) = true) {p : Point α}
    (hp : p ∈ ring) : ∃ q ∈ ring.dropLast, (p == q) = true := by
  match ring with
  | first :: second :: rest =>
      rw [← List.dropLast_concat_getLast (List.cons_ne_nil first _)] at hp
      rcases List.mem_append.mp hp with hp | hp
      · exact ⟨p, hp, BEq.rfl⟩
      · rw [List.mem_singleton.mp hp]
        refine ⟨first, List.mem_cons_self, BEq.symm ?_⟩
        rw [List.getLast?_eq_getLast_of_ne_nil (List.cons_ne_nil first _)] at hclosed
        exact hclosed

namespace Geometry

/-- The rings of a geometry, those inside its members included. -/
def rings (g : Geometry α) : List (List (Point α)) :=
  g.flatten (fun _ => []) (fun _ => []) (fun ring => [ring])

theorem rings_collection (members : List (Geometry α)) (bbox : Option (Box α)) :
    (collection members bbox).rings = members.flatMap rings :=
  flatten_collection _ _ _ members bbox

/-- What is taken from a geometry is taken from its points and lines, and from its rings. -/
theorem perm_rings (ofPoint : Point α → List γ) (ofLine ofRing : List (Point α) → List γ)
    (g : Geometry α) :
    (g.flatten ofPoint ofLine ofRing).Perm
      (g.flatten ofPoint ofLine (fun _ => []) ++ g.rings.flatMap ofRing) := by
  have hnothing {β δ : Type} (xs : List β) : (xs.flatMap fun _ => ([] : List δ)) = [] :=
    List.flatMap_eq_nil_iff.mpr fun _ _ => rfl
  induction g using nested_induction with
  | leaf g hg =>
      cases g with
      | multiPolygon ps bbox => simp [flatten, rings, hnothing, List.flatMap_assoc]
      | collection members bbox => exact (hg members bbox rfl).elim
      | _ => simp [flatten, rings, hnothing]
  | collection members bbox ih =>
      -- each member is parted, and what comes before the rings of one goes before all rings
      rw [flatten_collection, flatten_collection, rings_collection, List.flatMap_assoc]
      exact (List.Perm.flatMap_left _ ih).trans (List.flatMap_append_perm ..).symm

/-- The points that are not on a ring. -/
def outsideRings (g : Geometry α) : List (Point α) := g.flatten (fun p => [p]) id (fun _ => [])

theorem coordinates_perm (dropLast : Bool) (g : Geometry α) :
    (g.coordinates dropLast).Perm (g.outsideRings ++ ringPoints dropLast g.rings) := by
  rw [coordinates_eq_flatten]
  exact perm_rings _ _ (ringPart dropLast) g

theorem coordinates_subset (g : Geometry α) : g.coordinates true ⊆ g.coordinates false := by
  intro p hp
  rw [(coordinates_perm false g).mem_iff, List.mem_append]
  rw [(coordinates_perm true g).mem_iff, List.mem_append] at hp
  exact hp.imp_right (ringPoints_subset g.rings ·)

/-! ## Sound geometries -/

theorem areas_of_ne_collection {g : Geometry α}
    (hg : ∀ members bbox, g = collection members bbox → False) : g.areas = g.leafAreas := by
  rw [areas, leaves_of_ne_collection hg, List.flatMap_singleton]

theorem areas_collection (members : List (Geometry α)) (bbox : Option (Box α)) :
    (collection members bbox).areas = members.flatMap areas := by
  rw [areas, leaves_collection, List.flatMap_assoc]
  rfl

theorem rings_eq (g : Geometry α) : g.rings = g.areas.flatMap Polygon.rings := by
  rw [areas, List.flatMap_assoc]
  refine (flatMap_leaves (fun g hg => ?_) g).symm
  cases g with
  | collection members bbox => exact (hg members bbox rfl).elim
  | _ => simp [leafAreas, flatten]

theorem mem_coordinates_of_mem_ring {g : Geometry α} {a : Polygon α} {ring : List (Point α)}
    {p : Point α} (ha : a ∈ g.areas) (hring : ring ∈ a.rings) (hp : p ∈ ring) :
    p ∈ g.coordinates false := by
  have hrings : ring ∈ g.rings := by
    rw [rings_eq]
    exact List.mem_flatMap.mpr ⟨a, ha, hring⟩
  rw [(coordinates_perm false g).mem_iff]
  exact List.mem_append_right _ (List.mem_flatMap.mpr ⟨ring, hrings, hp⟩)

section

variable [Scalar α] {g : Geometry α}

theorem Sound.closed_of_mem_rings (h : g.Sound) {ring : List (Point α)} (hring : ring ∈ g.rings) :
    4 ≤ ring.length ∧ (ring.head? == ring.getLast?) = true := by
  rw [rings_eq] at hring
  obtain ⟨area, harea, hring⟩ := List.mem_flatMap.mp hring
  exact h.closed area harea ring hring

theorem Sound.length_coordinates (h : g.Sound) :
    (g.coordinates false).length = (g.coordinates true).length + g.rings.length := by
  have hrings : ∀ ring ∈ g.rings, ring ≠ [] := by
    rintro ring hring rfl
    exact absurd (h.closed_of_mem_rings hring).1 (by simp)
  rw [(coordinates_perm false g).length_eq, (coordinates_perm true g).length_eq,
    List.length_append, List.length_append, length_ringPoints hrings, Nat.add_assoc]

theorem Sound.exists_mem_coordinates [Scalar.LawfulSame α] (h : g.Sound) {p : Point α}
    (hp : p ∈ g.coordinates false) : ∃ q ∈ g.coordinates true, (p == q) = true := by
  simp only [(coordinates_perm true g).mem_iff, List.mem_append]
  rw [(coordinates_perm false g).mem_iff, List.mem_append] at hp
  rcases hp with hp | hp
  · exact ⟨p, .inl hp, BEq.rfl⟩
  · obtain ⟨ring, hring, hp⟩ := List.mem_flatMap.mp hp
    obtain ⟨hlength, hclosed⟩ := h.closed_of_mem_rings hring
    obtain ⟨q, hq, hpq⟩ := exists_mem_dropLast (by omega) hclosed hp
    exact ⟨q, .inr (List.mem_flatMap.mpr ⟨ring, hring, hq⟩), hpq⟩

end

theorem isValid_iff {g : Geometry Float} : g.validate.isValid = true ↔ g.Sound := by
  rw [validate_eq, List.isEmpty_iff, flaws_eq_nil_iff]

end Geometry

/-! ## Boxes -/

/-- Points that are equal to others do not change the least box around these. -/
theorem Box.around?_beq_of_subset {points others : List (Point Float)}
    (hsubset : others ⊆ points) (hcover : ∀ p ∈ points, ∃ q ∈ others, (p == q) = true) :
    (Box.around? points == Box.around? others) = true := by
  cases points with
  | nil => rw [List.eq_nil_of_subset_nil hsubset]; rfl
  | cons first rest =>
      obtain ⟨q, hq, -⟩ := hcover first List.mem_cons_self
      obtain ⟨b, hb⟩ := exists_around? (List.cons_ne_nil first rest)
      obtain ⟨c, hc⟩ := exists_around? (List.ne_nil_of_mem hq)
      rw [hb, hc]
      exact (around?_bounds hb).beq_of_subset (around?_bounds hc) hsubset hcover

namespace GeoJson

theorem coordinates_explode (dropLast : Bool) (v : GeoJson α) :
    v.explode.coordinates dropLast = v.coordinates true := by
  have hpoint (p : Point α) : Feature.coordinates dropLast (.ofGeometry (.point p)) = [p] :=
    Geometry.coordinates_eq_flatten dropLast _
  rw [explode, FeatureCollection.coordinates, List.flatMap_map]
  simp only [hpoint]
  exact List.flatMap_singleton' _

theorem extent?_explode [Scalar α] (v : GeoJson α) :
    (collection v.explode).extent? = Box.around? (v.coordinates true) := by
  rw [← coordinates_explode false v]
  rfl

end GeoJson

/-- A geometry that is found valid has the same positions with the last points of its rings
as without them, and one point more for each ring. So its least box is the same, and so is
the extent of its points as features. -/
theorem closing_points_repeat (g : Geometry Float) (h : g.validate.isValid = true) :
    (∀ p ∈ g.coordinates false, ∃ q ∈ g.coordinates true, (p == q) = true)
      ∧ (g.coordinates false).length = (g.coordinates true).length + g.rings.length
      ∧ (Box.around? (g.coordinates false) == Box.around? (g.coordinates true)) = true
      ∧ ((GeoJson.collection (GeoJson.geometry g).explode).extent?
          == Box.around? (g.coordinates false)) = true := by
  have hsound := Geometry.isValid_iff.mp h
  have hbox := Box.around?_beq_of_subset g.coordinates_subset
    fun p hp => hsound.exists_mem_coordinates hp
  refine ⟨fun p hp => hsound.exists_mem_coordinates hp, hsound.length_coordinates, hbox, ?_⟩
  rw [GeoJson.extent?_explode]
  exact Geometry.bbox_equivalence.symm hbox

/-- A ring inside two collections is closed by a point with the other zero. -/
theorem closing_points_repeat_of_signed_zero :
    let ring : List (Point Float) :=
      [⟨0, 0, none⟩, ⟨4, 0, none⟩, ⟨4, 4, some 7⟩, ⟨-0, 0, none⟩]
    let g : Geometry Float :=
      .collection [.point ⟨5, 5, none⟩, .collection [.polygon ⟨[ring], none⟩]]
    g.validate.isValid = true
      ∧ (∃ q ∈ g.coordinates true, ((⟨-0, 0, none⟩ : Point Float) == q) = true)
      ∧ (g.coordinates false).length = (g.coordinates true).length + 1
      ∧ (Box.around? (g.coordinates false) == Box.around? (g.coordinates true)) = true
      ∧ ((GeoJson.collection (GeoJson.geometry g).explode).extent?
          == Box.around? (g.coordinates false)) = true := by
  intro ring g
  have hvalid : g.validate.isValid = true := by
    rw [Geometry.validate_eq, Geometry.flaws_eq]
    decide +kernel
  obtain ⟨hpositions, hlength, hbox, hextent⟩ := closing_points_repeat g hvalid
  have hclosing : ⟨-0, 0, none⟩ ∈ g.coordinates false := by
    rw [Geometry.coordinates_eq_flatten]
    exact .tail _ (.tail _ (.tail _ (.tail _ (.head _))))
  exact ⟨hvalid, hpositions _ hclosing, hlength, hbox, hextent⟩

end Graticule
