import Graticule.Proofs.Distinct
import Graticule.Proofs.Flattening
import Mathlib.Data.List.Forall2

/-!
# Equal geometries match part by part

Geometries are compared with a list of pairs still to be compared, and pairing off the
members of two collections would by itself forget what one of them has more. `Matches`
has neither list nor pairs: by recursion on the nesting it asks for the same kind, equal
boxes, and parts that match at every position, down to the points.

Identity of scalars is an equivalence, whatever is not a number included, and so is
equality at every level above. Equal geometries flatten to lists that are equal element by
element, if what is taken of equal parts is.
-/

namespace Graticule

variable {α β γ : Type}

/-! ## Lists, one by one -/

theorem beq_iff_forall₂ [BEq β] {R : β → β → Prop} (hR : ∀ a b, (a == b) = true ↔ R a b)
    (xs ys : List β) : (xs == ys) = true ↔ List.Forall₂ R xs ys := by
  induction xs generalizing ys with
  | nil => cases ys <;> simp
  | cons x xs ih =>
      cases ys with
      | nil => simp
      | cons y ys => rw [List.cons_beq_cons, Bool.and_eq_true, hR, ih, List.forall₂_cons]

theorem forall₂_trans {R : β → β → Prop} (hR : Equivalence R)
    {xs ys zs : List β} (h : List.Forall₂ R xs ys) (h' : List.Forall₂ R ys zs) :
    List.Forall₂ R xs zs := by
  induction h generalizing zs with
  | nil => exact h'
  | cons hxy _ ih =>
      cases h' with
      | cons hyz hrest => exact .cons (hR.trans hxy hyz) (ih hrest)

theorem forall₂_equivalence {R : β → β → Prop} (hR : Equivalence R) :
    Equivalence (List.Forall₂ R) where
  refl _ := List.forall₂_same.mpr fun x _ => hR.refl x
  symm h := (h.imp fun _ _ => hR.symm).flip
  trans h h' := forall₂_trans hR h h'

variable [Scalar α]

/-! ## What matches -/

/-- Points are equal one by one. -/
abbrev Point.EqualEach : List (Point α) → List (Point α) → Prop :=
  List.Forall₂ fun p q => (p == q) = true

/-- Two lines have equal points, one by one, and equal boxes. -/
structure LineString.Matches (l m : LineString α) : Prop where
  points : Point.EqualEach l.points m.points
  bbox : (l.bbox == m.bbox) = true

/-- Two polygons have as many rings, with equal points, and equal boxes. -/
structure Polygon.Matches (p q : Polygon α) : Prop where
  rings : List.Forall₂ Point.EqualEach p.rings q.rings
  bbox : (p.bbox == q.bbox) = true

/-- Two geometries are of one kind and have equal boxes, and their parts match in order,
as many on one side as on the other. -/
inductive Geometry.Matches : Geometry α → Geometry α → Prop where
  | point {p q : Point α} (hpoint : (p == q) = true) : Matches (point p) (point q)
  | multiPoint {ps qs : List (Point α)} {b c : Option (Box α)} (hpoints : Point.EqualEach ps qs)
      (hbox : (b == c) = true) : Matches (multiPoint ps b) (multiPoint qs c)
  | lineString {l m : LineString α} (hline : l.Matches m) : Matches (lineString l) (lineString m)
  | multiLineString {ls ms : List (LineString α)} {b c : Option (Box α)}
      (hlines : List.Forall₂ LineString.Matches ls ms) (hbox : (b == c) = true) :
      Matches (multiLineString ls b) (multiLineString ms c)
  | polygon {p q : Polygon α} (hpolygon : p.Matches q) : Matches (polygon p) (polygon q)
  | multiPolygon {ps qs : List (Polygon α)} {b c : Option (Box α)}
      (hpolygons : List.Forall₂ Polygon.Matches ps qs) (hbox : (b == c) = true) :
      Matches (multiPolygon ps b) (multiPolygon qs c)
  | collection {ms ns : List (Geometry α)} {b c : Option (Box α)}
      (hlength : ms.length = ns.length)
      (hmembers : ∀ i (hm : i < ms.length) (hn : i < ns.length), Matches ms[i] ns[i])
      (hbox : (b == c) = true) : Matches (collection ms b) (collection ns c)

theorem LineString.beq_iff_matches (l m : LineString α) : (l == m) = true ↔ l.Matches m := by
  have hunfold : (l == m) = (l.points == m.points && l.bbox == m.bbox) := by
    rfl
  rw [hunfold, Bool.and_eq_true, beq_iff_forall₂ fun _ _ => Iff.rfl]
  exact ⟨fun h => ⟨h.1, h.2⟩, fun h => ⟨h.points, h.bbox⟩⟩

theorem Polygon.beq_iff_matches (p q : Polygon α) : (p == q) = true ↔ p.Matches q := by
  have hunfold : (p == q) = (p.rings == q.rings && p.bbox == q.bbox) := by
    rfl
  rw [hunfold, Bool.and_eq_true, beq_iff_forall₂ (beq_iff_forall₂ fun _ _ => Iff.rfl)]
  exact ⟨fun h => ⟨h.1, h.2⟩, fun h => ⟨h.rings, h.bbox⟩⟩

namespace Geometry

/-! ## Equality is matching -/

theorem sameLeaf_iff_matches {g h : Geometry α}
    (hg : ∀ members bbox, g = collection members bbox → False) :
    sameLeaf g h = true ↔ g.Matches h := by
  constructor
  · intro hsame
    unfold sameLeaf at hsame
    split at hsame
    · exact .point hsame
    · rw [Bool.and_eq_true, beq_iff_forall₂ fun _ _ => Iff.rfl] at hsame
      exact .multiPoint hsame.1 hsame.2
    · exact .lineString ((LineString.beq_iff_matches _ _).mp hsame)
    · rw [Bool.and_eq_true, beq_iff_forall₂ LineString.beq_iff_matches] at hsame
      exact .multiLineString hsame.1 hsame.2
    · exact .polygon ((Polygon.beq_iff_matches _ _).mp hsame)
    · rw [Bool.and_eq_true, beq_iff_forall₂ Polygon.beq_iff_matches] at hsame
      exact .multiPolygon hsame.1 hsame.2
    · cases hsame
  · intro hmatches
    cases hmatches with
    | point hpoint => exact hpoint
    | multiPoint hpoints hbox =>
        rw [sameLeaf, Bool.and_eq_true, beq_iff_forall₂ fun _ _ => Iff.rfl]
        exact ⟨hpoints, hbox⟩
    | lineString hline => exact (LineString.beq_iff_matches _ _).mpr hline
    | multiLineString hlines hbox =>
        rw [sameLeaf, Bool.and_eq_true, beq_iff_forall₂ LineString.beq_iff_matches]
        exact ⟨hlines, hbox⟩
    | polygon hpolygon => exact (Polygon.beq_iff_matches _ _).mpr hpolygon
    | multiPolygon hpolygons hbox =>
        rw [sameLeaf, Bool.and_eq_true, beq_iff_forall₂ Polygon.beq_iff_matches]
        exact ⟨hpolygons, hbox⟩
    | collection => exact (hg _ _ rfl).elim

theorem alikeMembers_iff (ms ns : List (Geometry α)) :
    alikeMembers ms ns = true ↔ List.Forall₂ (fun m n => alike m n = true) ms ns := by
  induction ms generalizing ns with
  | nil => cases ns <;> simp [alikeMembers]
  | cons m ms ih =>
      cases ns with
      | nil => simp [alikeMembers]
      | cons n ns => rw [alikeMembers, Bool.and_eq_true, ih, List.forall₂_cons]

theorem alike_iff_matches (g h : Geometry α) : alike g h = true ↔ g.Matches h := by
  induction g using nested_induction generalizing h with
  | leaf g hg =>
      rw [← sameLeaf_iff_matches hg, alike.eq_def]
      split
      · exact (hg _ _ rfl).elim
      · exact Iff.rfl
  | collection ms b ih =>
      cases h with
      | collection ns c =>
          -- only here does the comparison go on below, and it pairs members by position
          rw [alike, Bool.and_eq_true, alikeMembers_iff, List.forall₂_iff_get]
          constructor
          · rintro ⟨hbox, hlength, hmembers⟩
            exact .collection hlength
              (fun i hm hn => (ih _ (List.getElem_mem hm) _).mp (hmembers i hm hn)) hbox
          · rintro (_ | _ | _ | _ | _ | _ | ⟨hlength, hmembers, hbox⟩)
            exact ⟨hbox, hlength,
              fun i hm hn => (ih _ (List.getElem_mem hm) _).mpr (hmembers i hm hn)⟩
      | _ => exact iff_of_false (by simp [alike, sameLeaf]) (by rintro ⟨⟩)

theorem beq_iff_matches (g h : Geometry α) : (g == h) = true ↔ g.Matches h := by
  rw [beq_eq_alike, alike_iff_matches]

/-! ## Equality is an equivalence -/

section

variable [Scalar.LawfulSame α]

theorem bbox_equivalence : Equivalence fun b c : Option (Box α) => (b == c) = true where
  refl _ := BEq.rfl
  symm {b c} h := by
    match b, c, h with
    | none, none, _ => rfl
    | some b, some c, h =>
        obtain ⟨hsouthwest, hnortheast⟩ := Bool.and_eq_true_iff.mp h
        exact Bool.and_eq_true_iff.mpr ⟨BEq.symm hsouthwest, BEq.symm hnortheast⟩
  trans {b c d} h h' := by
    match b, c, d, h, h' with
    | none, none, none, _, _ => rfl
    | some b, some c, some d, h, h' =>
        obtain ⟨hsouthwest, hnortheast⟩ := Bool.and_eq_true_iff.mp h
        obtain ⟨hsouthwest', hnortheast'⟩ := Bool.and_eq_true_iff.mp h'
        exact Bool.and_eq_true_iff.mpr
          ⟨BEq.trans hsouthwest hsouthwest', BEq.trans hnortheast hnortheast'⟩

theorem equalEach_equivalence : Equivalence (Point.EqualEach (α := α)) :=
  forall₂_equivalence ⟨fun _ => BEq.rfl, BEq.symm, BEq.trans⟩

theorem line_equivalence : Equivalence (LineString.Matches (α := α)) where
  refl _ := ⟨equalEach_equivalence.refl _, bbox_equivalence.refl _⟩
  symm h := ⟨equalEach_equivalence.symm h.points, bbox_equivalence.symm h.bbox⟩
  trans h h' := ⟨equalEach_equivalence.trans h.points h'.points,
    bbox_equivalence.trans h.bbox h'.bbox⟩

theorem polygon_equivalence : Equivalence (Polygon.Matches (α := α)) where
  refl _ := ⟨(forall₂_equivalence equalEach_equivalence).refl _, bbox_equivalence.refl _⟩
  symm h := ⟨(forall₂_equivalence equalEach_equivalence).symm h.rings, bbox_equivalence.symm h.bbox⟩
  trans h h' := ⟨(forall₂_equivalence equalEach_equivalence).trans h.rings h'.rings,
    bbox_equivalence.trans h.bbox h'.bbox⟩

theorem Matches.symm {g h : Geometry α} (hgh : g.Matches h) : h.Matches g := by
  induction hgh with
  | point hpoint => exact .point (BEq.symm hpoint)
  | multiPoint hpoints hbox =>
      exact .multiPoint (equalEach_equivalence.symm hpoints) (bbox_equivalence.symm hbox)
  | lineString hline => exact .lineString (line_equivalence.symm hline)
  | multiLineString hlines hbox =>
      exact .multiLineString ((forall₂_equivalence line_equivalence).symm hlines)
        (bbox_equivalence.symm hbox)
  | polygon hpolygon => exact .polygon (polygon_equivalence.symm hpolygon)
  | multiPolygon hpolygons hbox =>
      exact .multiPolygon ((forall₂_equivalence polygon_equivalence).symm hpolygons)
        (bbox_equivalence.symm hbox)
  | collection hlength _ hbox ih =>
      exact .collection hlength.symm (fun i hm hn => ih i hn hm) (bbox_equivalence.symm hbox)

theorem Matches.trans {g h k : Geometry α} (hgh : g.Matches h) (hhk : h.Matches k) :
    g.Matches k := by
  induction hgh generalizing k with
  | point hpoint =>
      cases hhk with
      | point hpoint' => exact .point (BEq.trans hpoint hpoint')
  | multiPoint hpoints hbox =>
      cases hhk with
      | multiPoint hpoints' hbox' =>
          exact .multiPoint (equalEach_equivalence.trans hpoints hpoints')
            (bbox_equivalence.trans hbox hbox')
  | lineString hline =>
      cases hhk with
      | lineString hline' => exact .lineString (line_equivalence.trans hline hline')
  | multiLineString hlines hbox =>
      cases hhk with
      | multiLineString hlines' hbox' =>
          exact .multiLineString ((forall₂_equivalence line_equivalence).trans hlines hlines')
            (bbox_equivalence.trans hbox hbox')
  | polygon hpolygon =>
      cases hhk with
      | polygon hpolygon' => exact .polygon (polygon_equivalence.trans hpolygon hpolygon')
  | multiPolygon hpolygons hbox =>
      cases hhk with
      | multiPolygon hpolygons' hbox' =>
          exact .multiPolygon
            ((forall₂_equivalence polygon_equivalence).trans hpolygons hpolygons')
            (bbox_equivalence.trans hbox hbox')
  | collection hlength _ hbox ih =>
      cases hhk with
      | collection hlength' hmembers' hbox' =>
          exact .collection (hlength.trans hlength')
            (fun i hm hn => ih i hm (hlength ▸ hm) (hmembers' i (hlength ▸ hm) hn))
            (bbox_equivalence.trans hbox hbox')

instance : EquivBEq (Geometry α) where
  symm hgh := (beq_iff_matches _ _).mpr ((beq_iff_matches _ _).mp hgh).symm
  trans hgh hhk := (beq_iff_matches _ _).mpr
    (((beq_iff_matches _ _).mp hgh).trans ((beq_iff_matches _ _).mp hhk))

end

/-! ## What equal geometries flatten to -/

theorem Matches.forall₂_flatten {R : γ → γ → Prop} {ofPoint : Point α → List γ}
    {ofLine ofRing : List (Point α) → List γ}
    (hpoint : ∀ p q, (p == q) = true → List.Forall₂ R (ofPoint p) (ofPoint q))
    (hline : ∀ ps qs, Point.EqualEach ps qs → List.Forall₂ R (ofLine ps) (ofLine qs))
    (hring : ∀ ps qs, Point.EqualEach ps qs → List.Forall₂ R (ofRing ps) (ofRing qs))
    {g h : Geometry α} (hgh : g.Matches h) :
    List.Forall₂ R (g.flatten ofPoint ofLine ofRing) (h.flatten ofPoint ofLine ofRing) := by
  have hrings {p q : Polygon α} (hpq : p.Matches q) :
      List.Forall₂ R (p.rings.flatMap ofRing) (q.rings.flatMap ofRing) :=
    List.rel_flatMap hpq.rings hring
  induction hgh with
  | point h => exact hpoint _ _ h
  | multiPoint hpoints _ => exact List.rel_flatMap hpoints hpoint
  | lineString h => exact hline _ _ h.points
  | multiLineString hlines _ => exact List.rel_flatMap hlines fun _ _ h => hline _ _ h.points
  | polygon h => exact hrings h
  | multiPolygon hpolygons _ => exact List.rel_flatMap hpolygons fun _ _ h => hrings h
  | @collection ms ns _ _ hlength _ _ ih =>
      have heach : List.Forall₂ (fun m n => List.Forall₂ R (m.flatten ofPoint ofLine ofRing)
          (n.flatten ofPoint ofLine ofRing)) ms ns :=
        List.forall₂_iff_get.mpr ⟨hlength, ih⟩
      rw [flatten_collection, flatten_collection]
      exact List.rel_flatMap heach fun _ _ h => h

theorem equalEach_ringPart (dropLast : Bool) (ps qs : List (Point α))
    (h : Point.EqualEach ps qs) :
    Point.EqualEach (ringPart dropLast ps) (ringPart dropLast qs) := by
  cases dropLast with
  | false => exact h
  | true =>
      show Point.EqualEach ps.dropLast qs.dropLast
      rw [List.dropLast_eq_take, List.dropLast_eq_take, h.length_eq]
      exact List.forall₂_take _ h

theorem Matches.equalEach_coordinates {g h : Geometry α} (hgh : g.Matches h) (dropLast : Bool) :
    Point.EqualEach (g.coordinates dropLast) (h.coordinates dropLast) := by
  rw [coordinates_eq_flatten, coordinates_eq_flatten]
  exact hgh.forall₂_flatten (fun _ _ hpq => .cons hpq .nil) (fun _ _ h => h)
    (equalEach_ringPart dropLast)

/-- Geometries are equal exactly when they match part by part. That is an equivalence, on
values that are not numbers too, and equal geometries have equal points, one by one, with
or without the last points of rings. -/
theorem beq_by_recursion [Scalar.LawfulSame α] (g h k : Geometry α) :
    ((g == h) = true ↔ g.Matches h)
      ∧ (g == g) = true
      ∧ ((g == h) = true → (h == g) = true)
      ∧ ((g == h) = true → (h == k) = true → (g == k) = true)
      ∧ ((g == h) = true → ∀ dropLast,
        Point.EqualEach (g.coordinates dropLast) (h.coordinates dropLast)) := by
  refine ⟨beq_iff_matches g h, BEq.rfl, BEq.symm, BEq.trans, fun hgh dropLast => ?_⟩
  exact ((beq_iff_matches g h).mp hgh).equalEach_coordinates dropLast

/-- Two nested collections with zeros of different signs, and with a latitude, an altitude
and a corner of a box that are not numbers. -/
theorem beq_by_recursion_of_not_numbers :
    let nested (zero : Float) : Geometry Float :=
      .collection [.point ⟨zero, 0 / 0, some (0 / 0)⟩,
        .collection [.polygon ⟨[[⟨zero, 1, none⟩, ⟨2, zero, none⟩]], none⟩]
          (some ⟨⟨zero, 0 / 0, none⟩, ⟨2, 2, some 3⟩⟩)] none
    (nested 0 == nested (-0)) = true ∧ (nested (-0) == nested 0) = true
      ∧ (nested 0).Matches (nested (-0)) ∧ (nested 0 == nested 0) = true
      ∧ Point.EqualEach ((nested 0).coordinates true) ((nested (-0)).coordinates true) := by
  intro nested
  have hequal : (nested 0 == nested (-0)) = true := by
    rw [beq_eq_alike]
    rfl
  obtain ⟨hmatches, -, hsymm, htrans, hcoordinates⟩ :=
    beq_by_recursion (nested 0) (nested (-0)) (nested 0)
  exact ⟨hequal, hsymm hequal, hmatches.mp hequal, htrans hequal (hsymm hequal),
    hcoordinates hequal true⟩

end Geometry

end Graticule
