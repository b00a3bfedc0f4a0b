import Graticule.Proofs.RoundTrip

/-!
# What encoding keeps

Every value can be written and read back, whatever boxes it carries and
wherever it carries them. Only boxes can be lost on the way, and `bare` is the
value without any: it comes back as it was, not merely equal to what it was.

Of the boxes more can be said. A value has `places` for them, one for every
feature, every collection and every geometry but a point, taken in the order of
the document; and it has `innerPlaces`, those of the lines and polygons inside a
list, which no document has. Values that are the same without their boxes have
the same places, so the boxes of the two can be compared place by place. In a
place every box comes back with its four sides and an empty place stays empty;
an inner place comes back empty.

All this is read off one function. `mapBoxes` changes what is in the places and
what is in the inner places, and nothing else; a flat value and a bare value are
two cases of it.
-/

namespace Graticule

namespace Geometry

variable {α : Type} {outer inner outer' inner' : Option (Box α) → Option (Box α)}

/-! ## Boxes and their places in a geometry -/

mutual

/-- The geometry with other boxes: `outer` of what was in a place, and `inner`
of what was in an inner one. -/
def mapBoxes (outer inner : Option (Box α) → Option (Box α)) : Geometry α → Geometry α
  | point p => point p
  | multiPoint ps b => multiPoint ps (outer b)
  | lineString l => lineString ⟨l.points, outer l.bbox⟩
  | multiLineString ls b =>
    multiLineString (ls.map fun l => ⟨l.points, inner l.bbox⟩) (outer b)
  | polygon p => polygon ⟨p.rings, outer p.bbox⟩
  | multiPolygon ps b => multiPolygon (ps.map fun p => ⟨p.rings, inner p.bbox⟩) (outer b)
  | collection ms b => collection (mapBoxesAll outer inner ms) (outer b)

/-- The same of several geometries. -/
def mapBoxesAll (outer inner : Option (Box α) → Option (Box α)) :
    List (Geometry α) → List (Geometry α)
  | [] => []
  | g :: rest => mapBoxes outer inner g :: mapBoxesAll outer inner rest

end

mutual

/-- What is in the places for a box, that of a collection before those of its
members. -/
def places : Geometry α → List (Option (Box α))
  | point _ => []
  | multiPoint _ b | multiLineString _ b | multiPolygon _ b => [b]
  | lineString l => [l.bbox]
  | polygon p => [p.bbox]
  | collection ms b => b :: placesAll ms

/-- The same of several geometries. -/
def placesAll : List (Geometry α) → List (Option (Box α))
  | [] => []
  | g :: rest => places g ++ placesAll rest

end

mutual

/-- What the lines and polygons inside a list have for a box. -/
def innerPlaces : Geometry α → List (Option (Box α))
  | multiLineString ls _ => ls.map LineString.bbox
  | multiPolygon ps _ => ps.map Polygon.bbox
  | collection ms _ => innerPlacesAll ms
  | _ => []

/-- The same of several geometries. -/
def innerPlacesAll : List (Geometry α) → List (Option (Box α))
  | [] => []
  | g :: rest => innerPlaces g ++ innerPlacesAll rest

end

theorem placesAll_eq (gs : List (Geometry α)) : placesAll gs = gs.flatMap places := by
  induction gs with
  | nil => rfl
  | cons g rest ih => rw [placesAll, ih, List.flatMap_cons]

theorem innerPlacesAll_eq (gs : List (Geometry α)) :
    innerPlacesAll gs = gs.flatMap innerPlaces := by
  induction gs with
  | nil => rfl
  | cons g rest ih => rw [innerPlacesAll, ih, List.flatMap_cons]

mutual

theorem mapBoxes_mapBoxes (g : Geometry α) :
    (g.mapBoxes outer inner).mapBoxes outer' inner'
      = g.mapBoxes (outer' ∘ outer) (inner' ∘ inner) := by
  match g with
  | .point _ | .multiPoint .. | .lineString _ | .polygon _ => rfl
  | .multiLineString ls b | .multiPolygon ls b =>
      simp only [mapBoxes, List.map_map]
      rfl
  | .collection ms b =>
      rw [mapBoxes, mapBoxes, mapBoxes, mapBoxesAll_mapBoxesAll ms]
      rfl

theorem mapBoxesAll_mapBoxesAll (gs : List (Geometry α)) :
    mapBoxesAll outer' inner' (mapBoxesAll outer inner gs)
      = mapBoxesAll (outer' ∘ outer) (inner' ∘ inner) gs := by
  match gs with
  | [] => rfl
  | g :: rest =>
      rw [mapBoxesAll, mapBoxesAll, mapBoxesAll, mapBoxes_mapBoxes g,
        mapBoxesAll_mapBoxesAll rest]

end

mutual

theorem places_mapBoxes (g : Geometry α) :
    (g.mapBoxes outer inner).places = g.places.map outer := by
  match g with
  | .point _ | .multiPoint .. | .lineString _ | .multiLineString .. | .polygon _
  | .multiPolygon .. => rfl
  | .collection ms b => rw [mapBoxes, places, places, placesAll_mapBoxesAll ms, List.map_cons]

theorem placesAll_mapBoxesAll (gs : List (Geometry α)) :
    placesAll (mapBoxesAll outer inner gs) = (placesAll gs).map outer := by
  match gs with
  | [] => rfl
  | g :: rest =>
      rw [mapBoxesAll, placesAll, placesAll, places_mapBoxes g, placesAll_mapBoxesAll rest,
        List.map_append]

end

mutual

theorem innerPlaces_mapBoxes (g : Geometry α) :
    (g.mapBoxes outer inner).innerPlaces = g.innerPlaces.map inner := by
  match g with
  | .point _ | .multiPoint .. | .lineString _ | .polygon _ => rfl
  | .multiLineString ls b | .multiPolygon ls b =>
      simp only [mapBoxes, innerPlaces, List.map_map]
      rfl
  | .collection ms b => exact innerPlacesAll_mapBoxesAll ms

theorem innerPlacesAll_mapBoxesAll (gs : List (Geometry α)) :
    innerPlacesAll (mapBoxesAll outer inner gs) = (innerPlacesAll gs).map inner := by
  match gs with
  | [] => rfl
  | g :: rest =>
      rw [mapBoxesAll, innerPlacesAll, innerPlacesAll, innerPlaces_mapBoxes g,
        innerPlacesAll_mapBoxesAll rest, List.map_append]

end

mutual

theorem flat_eq_mapBoxes (g : Geometry α) :
    g.flat = g.mapBoxes (Option.map Box.flat) fun _ => none := by
  match g with
  | .point _ | .multiPoint .. | .lineString _ | .multiLineString .. | .polygon _
  | .multiPolygon .. => rfl
  | .collection ms b => rw [flat, mapBoxes, flatAll_eq_mapBoxesAll ms]

theorem flatAll_eq_mapBoxesAll (gs : List (Geometry α)) :
    flatAll gs = mapBoxesAll (Option.map Box.flat) (fun _ => none) gs := by
  match gs with
  | [] => rfl
  | g :: rest =>
      rw [flatAll, mapBoxesAll, flat_eq_mapBoxes g, flatAll_eq_mapBoxesAll rest]

end

end Geometry

/-! ## Boxes and their places in features and values -/

namespace Feature

variable {α : Type} {outer inner outer' inner' : Option (Box α) → Option (Box α)}

/-- The feature with other boxes. -/
def mapBoxes (outer inner : Option (Box α) → Option (Box α)) (f : Feature α) : Feature α :=
  { f with
    geometry := f.geometry.map (Geometry.mapBoxes outer inner)
    bbox := outer f.bbox }

/-- What is in the places for a box, that of the feature before those of its
geometry. -/
def places (f : Feature α) : List (Option (Box α)) :=
  f.bbox :: f.geometry.toList.flatMap Geometry.places

/-- What the lines and polygons inside a list have for a box. -/
def innerPlaces (f : Feature α) : List (Option (Box α)) :=
  f.geometry.toList.flatMap Geometry.innerPlaces

theorem mapBoxes_mapBoxes (f : Feature α) :
    (f.mapBoxes outer inner).mapBoxes outer' inner'
      = f.mapBoxes (outer' ∘ outer) (inner' ∘ inner) := by
  simp only [mapBoxes, Option.map_map, Function.comp_def, Geometry.mapBoxes_mapBoxes]

theorem places_mapBoxes (f : Feature α) :
    (f.mapBoxes outer inner).places = f.places.map outer := by
  obtain ⟨geometry, properties, id, bbox⟩ := f
  cases geometry with
  | none => rfl
  | some g => simp [mapBoxes, places, Geometry.places_mapBoxes]

theorem innerPlaces_mapBoxes (f : Feature α) :
    (f.mapBoxes outer inner).innerPlaces = f.innerPlaces.map inner := by
  obtain ⟨geometry, properties, id, bbox⟩ := f
  cases geometry with
  | none => rfl
  | some g => simp [mapBoxes, innerPlaces, Geometry.innerPlaces_mapBoxes]

theorem flat_eq_mapBoxes (f : Feature α) :
    f.flat = f.mapBoxes (Option.map Box.flat) fun _ => none := by
  rw [flat, mapBoxes, funext Geometry.flat_eq_mapBoxes]

end Feature

namespace GeoJson

variable {α : Type} {outer inner outer' inner' : Option (Box α) → Option (Box α)}

/-- The value with other boxes. -/
def mapBoxes (outer inner : Option (Box α) → Option (Box α)) : GeoJson α → GeoJson α
  | geometry g => geometry (g.mapBoxes outer inner)
  | feature f => feature (f.mapBoxes outer inner)
  | collection c =>
    collection ⟨c.features.map (Feature.mapBoxes outer inner), outer c.bbox⟩

/-- The value without any box. -/
def bare (v : GeoJson α) : GeoJson α := v.mapBoxes (fun _ => none) fun _ => none

/-- What is in the places for a box, that of a collection before those of its
features. -/
def places : GeoJson α → List (Option (Box α))
  | geometry g => g.places
  | feature f => f.places
  | collection c => c.bbox :: c.features.flatMap Feature.places

/-- What the lines and polygons inside a list have for a box. -/
def innerPlaces : GeoJson α → List (Option (Box α))
  | geometry g => g.innerPlaces
  | feature f => f.innerPlaces
  | collection c => c.features.flatMap Feature.innerPlaces

theorem mapBoxes_mapBoxes (v : GeoJson α) :
    (v.mapBoxes outer inner).mapBoxes outer' inner'
      = v.mapBoxes (outer' ∘ outer) (inner' ∘ inner) := by
  cases v with
  | geometry g => exact congrArg geometry (Geometry.mapBoxes_mapBoxes g)
  | feature f => exact congrArg feature (Feature.mapBoxes_mapBoxes f)
  | collection c =>
      simp only [mapBoxes, List.map_map, Function.comp_def, Feature.mapBoxes_mapBoxes]

theorem places_mapBoxes (v : GeoJson α) :
    (v.mapBoxes outer inner).places = v.places.map outer := by
  cases v with
  | geometry g => exact Geometry.places_mapBoxes g
  | feature f => exact Feature.places_mapBoxes f
  | collection c =>
      simp only [mapBoxes, places, List.map_cons, List.flatMap_map, List.map_flatMap,
        Feature.places_mapBoxes]

theorem innerPlaces_mapBoxes (v : GeoJson α) :
    (v.mapBoxes outer inner).innerPlaces = v.innerPlaces.map inner := by
  cases v with
  | geometry g => exact Geometry.innerPlaces_mapBoxes g
  | feature f => exact Feature.innerPlaces_mapBoxes f
  | collection c =>
      simp only [mapBoxes, innerPlaces, List.flatMap_map, List.map_flatMap,
        Feature.innerPlaces_mapBoxes]

theorem flat_eq_mapBoxes (v : GeoJson α) :
    v.flat = v.mapBoxes (Option.map Box.flat) fun _ => none := by
  cases v with
  | geometry g => exact congrArg geometry (Geometry.flat_eq_mapBoxes g)
  | feature f => exact congrArg feature (Feature.flat_eq_mapBoxes f)
  | collection c => rw [flat, mapBoxes, funext Feature.flat_eq_mapBoxes]

theorem numbers_mapBoxes (v : GeoJson α) :
    (v.mapBoxes outer inner).numbers = v.numbers := by
  cases v with
  | geometry g => rfl
  | feature f => rfl
  | collection c =>
      simp only [mapBoxes, numbers, List.flatMap_map]
      rfl

/-! ## A flat value -/

theorem bare_flat (v : GeoJson α) : v.flat.bare = v.bare := by
  rw [flat_eq_mapBoxes, bare, mapBoxes_mapBoxes]
  rfl

theorem sides_places_flat (v : GeoJson α) :
    v.flat.places.map (Option.map Box.sides) = v.places.map (Option.map Box.sides) := by
  have hsides : Option.map Box.sides ∘ Option.map Box.flat
      = (Option.map Box.sides : Option (Box α) → _) := by
    funext b
    cases b <;> rfl
  rw [flat_eq_mapBoxes, places_mapBoxes, List.map_map, hsides]

theorem innerPlaces_flat (v : GeoJson α) : ∀ b ∈ v.flat.innerPlaces, b = none := by
  intro b hb
  rw [flat_eq_mapBoxes, innerPlaces_mapBoxes] at hb
  obtain ⟨_, _, rfl⟩ := List.mem_map.mp hb
  rfl

end GeoJson

/-! ## Equality with itself -/

section

variable {α : Type} [Scalar α] [Scalar.LawfulSame α]

theorem Feature.beq_self (f : Feature α) : (f == f) = f.numbers.all fun n => n == n := by
  obtain ⟨geometry, properties, id, bbox⟩ := f
  show (id == id && geometry == geometry && properties == properties && bbox == bbox) = _
  rw [FeatureId.optional_beq_self, Json.properties_beq_eq, Json.membersBeq_self,
    beq_self_eq_true, beq_self_eq_true, Bool.and_true, Bool.and_true, numbers, List.all_append]

/-- A value is equal to itself, unless a number among its properties is not. -/
theorem GeoJson.beq_self (v : GeoJson α) : (v == v) = v.numbers.all fun n => n == n := by
  cases v with
  | geometry g =>
      show (g == g) = true
      exact beq_self_eq_true g
  | feature f => exact Feature.beq_self f
  | collection c =>
      have hfeatures (fs : List (Feature α)) :
          (fs == fs) = (fs.flatMap Feature.numbers).all fun n => n == n := by
        induction fs with
        | nil => rfl
        | cons f rest ih =>
            rw [List.cons_beq_cons, Feature.beq_self, ih, List.flatMap_cons, List.all_append]
      show (c.features == c.features && c.bbox == c.bbox) = _
      rw [hfeatures, beq_self_eq_true, Bool.and_true]
      rfl

end

/-- What is read back from an encoded value is the value but for its boxes: the
two are the same without them, and equal unless a number among the properties
is not even equal to itself. Every box in a place that documents have comes back
with its four sides, and no box comes back where there was none. -/
theorem Document.decode_encode_bare (v : GeoJson Float) :
    ∃ w, (encode v).decode = .ok w
      ∧ w.bare = v.bare
      ∧ ((w.bare == v.bare) = true ↔ ∀ n ∈ v.numbers, (n == n) = true)
      ∧ w.places.map (Option.map Box.sides) = v.places.map (Option.map Box.sides)
      ∧ ∀ b ∈ w.innerPlaces, b = none := by
  refine ⟨v.flat, decode_encode v, v.bare_flat, ?_, v.sides_places_flat, v.innerPlaces_flat⟩
  rw [v.bare_flat, GeoJson.beq_self, GeoJson.bare, GeoJson.numbers_mapBoxes,
    List.all_eq_true]

end Graticule
