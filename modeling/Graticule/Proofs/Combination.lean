import Graticule.Combine
import Graticule.Proofs.Flattening

/-!
# Combined features

Combining collects three lists in one go through the features, and each feature may add to
one of them, several elements at a time, or to none. `Gathered` says what is collected by
recursion on the features, one at a time. The result has these lists and nothing else, and
they are collected from the result again: that is why combining twice is combining once.

Whether anything could be collected is decided from the lists alone. A feature may be of a
kind that is combined and have no element, and a collection of such features stays as it
is.
-/

namespace Graticule

variable {α : Type}

/-! ## What can be taken from features -/

/-- Points, lines and polygons, each in an order of their own. -/
@[ext]
structure Takings (α : Type) where
  points : List (Point α) := []
  lines : List (LineString α) := []
  polygons : List (Polygon α) := []

/-- What is taken first, and what is taken after it. -/
instance : Append (Takings α) where
  append s t := ⟨s.points ++ t.points, s.lines ++ t.lines, s.polygons ++ t.polygons⟩

/-- What a geometry gives: itself where it is a point, a line or a polygon, its elements
where it is a list of them, and nothing where it is a collection. -/
inductive Geometry.Gives : Geometry α → Takings α → Prop where
  | point (p : Point α) : Gives (point p) { points := [p] }
  | multiPoint (ps : List (Point α)) (b : Option (Box α)) : Gives (multiPoint ps b) { points := ps }
  | lineString (l : LineString α) : Gives (lineString l) { lines := [l] }
  | multiLineString (ls : List (LineString α)) (b : Option (Box α)) :
      Gives (multiLineString ls b) { lines := ls }
  | polygon (a : Polygon α) : Gives (polygon a) { polygons := [a] }
  | multiPolygon (as : List (Polygon α)) (b : Option (Box α)) :
      Gives (multiPolygon as b) { polygons := as }
  | collection (ms : List (Geometry α)) (b : Option (Box α)) : Gives (collection ms b) {}

/-- What features give, one after the other. -/
inductive Gathered : List (Feature α) → Takings α → Prop where
  | nil : Gathered [] {}
  | bare {f : Feature α} {rest : List (Feature α)} {t : Takings α} (hf : f.geometry = none)
      (hrest : Gathered rest t) : Gathered (f :: rest) t
  | cons {f : Feature α} {g : Geometry α} {rest : List (Feature α)} {s t : Takings α}
      (hf : f.geometry = some g) (hgives : g.Gives s) (hrest : Gathered rest t) :
      Gathered (f :: rest) (s ++ t)

theorem Geometry.gives_iff {g : Geometry α} {t : Takings α} :
    g.Gives t ↔ t = ⟨g.loosePoints, g.looseLines, g.loosePolygons⟩ := by
  constructor
  · intro h
    cases h <;> rfl
  · rintro rfl
    cases g <;> constructor

namespace Takings

/-- All that can be taken from features. -/
def ofFeatures (features : List (Feature α)) : Takings α :=
  let geometries := features.filterMap Feature.geometry
  ⟨geometries.flatMap Geometry.loosePoints, geometries.flatMap Geometry.looseLines,
    geometries.flatMap Geometry.loosePolygons⟩

theorem ofFeatures_cons_none {f : Feature α} (hf : f.geometry = none)
    (rest : List (Feature α)) : ofFeatures (f :: rest) = ofFeatures rest := by
  rw [ofFeatures, List.filterMap_cons_none hf]
  rfl

theorem ofFeatures_cons_some {f : Feature α} {g : Geometry α} (hf : f.geometry = some g)
    (rest : List (Feature α)) :
    ofFeatures (f :: rest)
      = ⟨g.loosePoints, g.looseLines, g.loosePolygons⟩ ++ ofFeatures rest := by
  rw [ofFeatures, List.filterMap_cons_some hf]
  rfl

theorem ofFeatures_append (features others : List (Feature α)) :
    ofFeatures (features ++ others) = ofFeatures features ++ ofFeatures others := by
  simp only [ofFeatures, List.filterMap_append, List.flatMap_append]
  rfl

theorem gathered_iff {features : List (Feature α)} {t : Takings α} :
    Gathered features t ↔ t = ofFeatures features := by
  constructor
  · intro h
    induction h with
    | nil => rfl
    | bare hf _ ih => rw [ih, ofFeatures_cons_none hf]
    | cons hf hgives _ ih => rw [ih, ofFeatures_cons_some hf, Geometry.gives_iff.mp hgives]
  · rintro rfl
    induction features with
    | nil => exact .nil
    | cons f rest ih =>
        cases hf : f.geometry with
        | none =>
            rw [ofFeatures_cons_none hf]
            exact .bare hf ih
        | some g =>
            rw [ofFeatures_cons_some hf]
            exact .cons hf (Geometry.gives_iff.mpr rfl) ih

/-- A list of each kind, where there is something to list. -/
def groups (t : Takings α) : List (Geometry α) :=
  (if t.points.isEmpty then [] else [.multiPoint t.points])
    ++ (if t.lines.isEmpty then [] else [.multiLineString t.lines])
    ++ (if t.polygons.isEmpty then [] else [.multiPolygon t.polygons])

theorem mem_groups {t : Takings α} {g : Geometry α} :
    g ∈ t.groups ↔ t.points ≠ [] ∧ g = .multiPoint t.points
      ∨ t.lines ≠ [] ∧ g = .multiLineString t.lines
      ∨ t.polygons ≠ [] ∧ g = .multiPolygon t.polygons := by
  have hgroup {β : Type} (xs : List β) (group : Geometry α) :
      g ∈ (if xs.isEmpty then [] else [group]) ↔ xs ≠ [] ∧ g = group := by
    cases xs <;> simp
  rw [groups, List.mem_append, List.mem_append, hgroup, hgroup, hgroup, or_assoc]

theorem groups_sublist (t : Takings α) :
    t.groups.Sublist
      [.multiPoint t.points, .multiLineString t.lines, .multiPolygon t.polygons] := by
  have hgroup {β : Type} (xs : List β) (group : Geometry α) :
      (if xs.isEmpty then [] else [group]).Sublist [group] := by
    cases xs <;> simp
  exact ((hgroup _ _).append (hgroup _ _)).append (hgroup _ _)

theorem ofFeatures_groups (t : Takings α) :
    ofFeatures (t.groups.map Feature.ofGeometry) = t := by
  -- a list that is left out has nothing to give back, so each is empty or listed
  obtain ⟨points, lines, polygons⟩ := t
  cases points <;> cases lines <;> cases polygons <;>
    simp [ofFeatures, groups, Feature.ofGeometry, Geometry.loosePoints, Geometry.looseLines,
      Geometry.loosePolygons]

theorem groups_eq_nil_iff {t : Takings α} : t.groups = [] ↔ t = {} := by
  constructor
  · intro h
    rw [← ofFeatures_groups t, h]
    rfl
  · rintro rfl
    rfl

end Takings

/-! ## What combining leaves -/

namespace FeatureCollection

/-- A collection of at most three features without boxes: the points, the lines and the
polygons, in this order, each of them where there are any. -/
structure Holds (c : FeatureCollection α) (t : Takings α) : Prop where
  bbox : c.bbox = none
  order : c.features.Sublist [.ofGeometry (.multiPoint t.points),
    .ofGeometry (.multiLineString t.lines), .ofGeometry (.multiPolygon t.polygons)]
  points : .ofGeometry (.multiPoint t.points) ∈ c.features ↔ t.points ≠ []
  lines : .ofGeometry (.multiLineString t.lines) ∈ c.features ↔ t.lines ≠ []
  polygons : .ofGeometry (.multiPolygon t.polygons) ∈ c.features ↔ t.polygons ≠ []

theorem ofGeometry_injective : Function.Injective (Feature.ofGeometry (α := α)) := by
  intro g h hgh
  simpa [Feature.ofGeometry] using hgh

theorem holds_groups (t : Takings α) :
    (⟨t.groups.map Feature.ofGeometry, none⟩ : FeatureCollection α).Holds t := by
  have hmem (g : Geometry α) :
      Feature.ofGeometry g ∈ t.groups.map Feature.ofGeometry ↔ g ∈ t.groups :=
    List.mem_map_of_injective ofGeometry_injective
  refine ⟨rfl, t.groups_sublist.map Feature.ofGeometry, ?_, ?_, ?_⟩
  all_goals
    rw [hmem, Takings.mem_groups]
    simp

/-- What is left is the collection itself where nothing can be taken from it, and else what
can be taken, group by group. -/
theorem combine_eq {c : FeatureCollection α} (h : c.features ≠ []) :
    c.combine = .ok (if (Takings.ofFeatures c.features).groups = [] then c
      else ⟨(Takings.ofFeatures c.features).groups.map Feature.ofGeometry, none⟩) := by
  have hcombined : c.combined = (Takings.ofFeatures c.features).groups := rfl
  rw [combine, if_neg (by simpa using h), hcombined]
  cases (Takings.ofFeatures c.features).groups <;> rfl

theorem features_ne_nil_of_combine {c r : FeatureCollection α} (h : c.combine = .ok r) :
    c.features ≠ [] := by
  intro hnil
  rw [combine, if_pos (by simp [hnil])] at h
  cases h

/-- What can be taken from a collection can be taken from what it combines to. -/
theorem ofFeatures_combine {c r : FeatureCollection α} (h : c.combine = .ok r) :
    Takings.ofFeatures r.features = Takings.ofFeatures c.features := by
  rw [combine_eq (features_ne_nil_of_combine h), Except.ok.injEq] at h
  subst h
  split
  · rfl
  · exact Takings.ofFeatures_groups _

theorem combine_combine {c r : FeatureCollection α} (h : c.combine = .ok r) :
    r.combine = .ok r := by
  have htakings := ofFeatures_combine h
  have hne := features_ne_nil_of_combine h
  rw [combine_eq hne, Except.ok.injEq] at h
  split at h
  · next hnone =>
      subst h
      rw [combine_eq hne, if_pos hnone]
  · next hsome =>
      -- the groups are features themselves, and what is taken from these is listed again
      subst h
      rw [combine_eq (by simpa using hsome), htakings, if_neg hsome]

end FeatureCollection

/-! ## Points taken apart -/

theorem ofFeatures_points (points : List (Point α)) :
    Takings.ofFeatures (points.map fun p => Feature.ofGeometry (.point p)) = { points } := by
  induction points with
  | nil => rfl
  | cons p rest ih =>
      rw [List.map_cons, Takings.ofFeatures_cons_some rfl, ih]
      rfl

/-- The points of a value, each made a feature, combine to one feature with all of them. -/
theorem combine_explode {v : GeoJson α} (h : v.coordinates true ≠ []) :
    v.explode.combine = .ok ⟨[.ofGeometry (.multiPoint (v.coordinates true))], none⟩ := by
  have htakings : Takings.ofFeatures v.explode.features = { points := v.coordinates true } :=
    ofFeatures_points _
  have hgroups : ({ points := v.coordinates true } : Takings α).groups
      = [.multiPoint (v.coordinates true)] := by
    simp [Takings.groups, h]
  have hfeatures : v.explode.features ≠ [] := by
    simpa [GeoJson.explode] using h
  rw [FeatureCollection.combine_eq hfeatures, htakings, hgroups, if_neg (List.cons_ne_nil _ _)]
  rfl

/-- A collection with features combines to what can be taken from them, a feature for each
kind, or stays as it is where nothing can be taken; either way it is combined then, and
combining it again leaves it so. The points of a value come apart into features and combine
to one feature again. -/
theorem combine_gathered :
    (∀ c : FeatureCollection α, c.features ≠ [] →
        ∃ t r, (∀ s, Gathered c.features s ↔ s = t) ∧ c.combine = .ok r
          ∧ (t = {} → r = c) ∧ (t ≠ {} → r.Holds t) ∧ r.combine = .ok r)
      ∧ ∀ v : GeoJson α, v.coordinates true ≠ [] →
          v.explode.combine = .ok ⟨[.ofGeometry (.multiPoint (v.coordinates true))], none⟩ := by
  refine ⟨fun c hc => ?_, fun v hv => combine_explode hv⟩
  have hcombine := FeatureCollection.combine_eq hc
  refine ⟨.ofFeatures c.features, _, fun s => Takings.gathered_iff, hcombine, fun hnone => ?_,
    fun hsome => ?_, FeatureCollection.combine_combine hcombine⟩
  · rw [if_pos (Takings.groups_eq_nil_iff.mpr hnone)]
  · rw [if_neg (mt Takings.groups_eq_nil_iff.mp hsome)]
    exact FeatureCollection.holds_groups _

/-- Of seven features one has no geometry, one is a collection with a point inside it and one
a list of no lines; the others are of all three kinds, in a mixed order. -/
theorem combine_gathered_of_seven_features :
    let p (i : Nat) : Point Nat := ⟨i, 0, none⟩
    let line : LineString Nat := ⟨[p 0, p 1], some ⟨p 0, p 1⟩⟩
    let area (i : Nat) : Polygon Nat := ⟨[[p i, p 1, p 2, p i]], none⟩
    let c : FeatureCollection Nat := ⟨[.ofGeometry (.multiPolygon [area 3, area 4]),
      .ofGeometry (.point (p 5)), { geometry := none }, .ofGeometry (.multiLineString []),
      .ofGeometry (.collection [.point (p 6)]), .ofGeometry (.lineString line),
      .ofGeometry (.multiPoint [p 7, p 8] (some ⟨p 7, p 8⟩))], none⟩
    let v : GeoJson Nat := .geometry (.collection [.polygon (area 9), .point (p 0)])
    c.features ≠ []
      ∧ (∃ r, c.combine = .ok r
          ∧ r.Holds { points := [p 5, p 7, p 8], lines := [line], polygons := [area 3, area 4] }
          ∧ r.combine = .ok r)
      ∧ v.coordinates true ≠ []
      ∧ v.explode.combine = .ok ⟨[.ofGeometry (.multiPoint [p 9, p 1, p 2, p 0])], none⟩ := by
  intro p line area c v
  let taken : Takings Nat :=
    { points := [p 5, p 7, p 8], lines := [line], polygons := [area 3, area 4] }
  have htaken : Gathered c.features taken := Takings.gathered_iff.mpr rfl
  obtain ⟨hcollection, hvalue⟩ := combine_gathered (α := Nat)
  obtain ⟨t, r, ht, hr, -, hholds, hagain⟩ := hcollection c (List.cons_ne_nil _ _)
  obtain rfl : taken = t := (ht taken).mp htaken
  have hv : v.coordinates true = [p 9, p 1, p 2, p 0] := by
    show Geometry.coordinates true _ = _
    rw [Geometry.coordinates_eq_flatten]
    rfl
  refine ⟨List.cons_ne_nil _ _, ⟨r, hr, hholds (by simp [taken]), hagain⟩, ?_, ?_⟩
  · rw [hv]
    exact List.cons_ne_nil _ _
  · rw [hvalue v (by rw [hv]; exact List.cons_ne_nil _ _), hv]

end Graticule
