import Graticule.Document
import Graticule.Proofs.Failure
import Graticule.Proofs.Identity

/-!
# Documents, there and back

An encoded value can always be decoded, and `decode_encode` says what comes
back: the value itself, but for its boxes. A box is written as its four sides,
so it comes back `flat`, its corners without altitudes; and the lines and
polygons inside a list have no place for a box in a document.

A value that was decoded has no boxes in such places to begin with. So it comes
back equal exactly when all its boxes are flat already: a box that was read
from six numbers is not the box that is read back, and one read from four
numbers is.

The comparison is the library's own, under which a double that is not a number
equals itself as a coordinate but not as a property. No text holds such a
property, but a value may, and then nothing equals that value. So the numbers
among the properties stand beside the boxes in the statements on equality.
-/

namespace Graticule

/-! ## What a document keeps of a box -/

namespace Box

variable {α : Type}

/-- The box without the altitudes of its corners. -/
def flat (b : Box α) : Box α := .ofSides b.west b.south b.east b.north

/-- No corner of the box has an altitude. -/
def isFlat (b : Box α) : Bool :=
  b.southwest.altitude.isNone && b.northeast.altitude.isNone

theorem flat_beq_self [Scalar α] [Scalar.LawfulSame α] (b : Box α) :
    (b.flat == b) = b.isFlat := by
  obtain ⟨⟨w, s, low⟩, ⟨e, n, high⟩⟩ := b
  show ((⟨w, s, none⟩ : Point α) == ⟨w, s, low⟩
    && (⟨e, n, none⟩ : Point α) == ⟨e, n, high⟩) = _
  have corner (x y : α) (altitude : Option α) :
      ((⟨x, y, none⟩ : Point α) == ⟨x, y, altitude⟩) = altitude.isNone := by
    cases altitude with
    | none =>
        show (Scalar.same x x && Scalar.same y y && true) = true
        simp [Scalar.LawfulSame.refl]
    | some z =>
        show (Scalar.same x x && Scalar.same y y && false) = false
        rw [Bool.and_false]
  simp only [corner, isFlat]

theorem map_flat_beq_self [Scalar α] [Scalar.LawfulSame α]
    (b : Option (Box α)) :
    (b.map flat == b) = b.toList.all isFlat := by
  cases b with
  | none => rfl
  | some b =>
      show (b.flat == b) = _
      simp [flat_beq_self]

end Box

/-! ## What a document keeps of a value -/

namespace Geometry

variable {α : Type}

mutual

/-- The geometry with every box flat, and without the boxes of the lines and
polygons inside a list. -/
def flat : Geometry α → Geometry α
  | point p => point p
  | multiPoint ps b => multiPoint ps (b.map Box.flat)
  | lineString l => lineString ⟨l.points, l.bbox.map Box.flat⟩
  | multiLineString ls b =>
    multiLineString (ls.map fun l => ⟨l.points, none⟩) (b.map Box.flat)
  | polygon p => polygon ⟨p.rings, p.bbox.map Box.flat⟩
  | multiPolygon ps b =>
    multiPolygon (ps.map fun p => ⟨p.rings, none⟩) (b.map Box.flat)
  | collection ms b => collection (flatAll ms) (b.map Box.flat)

/-- The same of several geometries. -/
def flatAll : List (Geometry α) → List (Geometry α)
  | [] => []
  | g :: rest => flat g :: flatAll rest

end

mutual

/-- The boxes a geometry carries, those of its parts included. -/
def boxes : Geometry α → List (Box α)
  | point _ => []
  | multiPoint _ b => b.toList
  | lineString l => l.bbox.toList
  | multiLineString ls b => b.toList ++ ls.flatMap fun l => l.bbox.toList
  | polygon p => p.bbox.toList
  | multiPolygon ps b => b.toList ++ ps.flatMap fun p => p.bbox.toList
  | collection ms b => b.toList ++ boxesAll ms

/-- The boxes several geometries carry. -/
def boxesAll : List (Geometry α) → List (Box α)
  | [] => []
  | g :: rest => boxes g ++ boxesAll rest

end

mutual

/-- No line or polygon inside a list carries a box of its own. -/
def Unboxed : Geometry α → Prop
  | multiLineString ls _ => ∀ l ∈ ls, l.bbox = none
  | multiPolygon ps _ => ∀ p ∈ ps, p.bbox = none
  | collection ms _ => UnboxedAll ms
  | _ => True

/-- The same of several geometries. -/
def UnboxedAll : List (Geometry α) → Prop
  | [] => True
  | g :: rest => Unboxed g ∧ UnboxedAll rest

end

end Geometry

namespace Feature

variable {α : Type}

/-- The feature with every box flat. -/
def flat (f : Feature α) : Feature α :=
  { f with geometry := f.geometry.map Geometry.flat, bbox := f.bbox.map Box.flat }

/-- The boxes a feature carries, those of its geometry included. -/
def boxes (f : Feature α) : List (Box α) :=
  f.bbox.toList ++ f.geometry.toList.flatMap Geometry.boxes

/-- No line or polygon inside a list carries a box of its own. -/
def Unboxed (f : Feature α) : Prop := ∀ g ∈ f.geometry, g.Unboxed

end Feature

namespace GeoJson

variable {α : Type}

/-- The value with every box flat. -/
def flat : GeoJson α → GeoJson α
  | geometry g => geometry g.flat
  | feature f => feature f.flat
  | collection c => collection ⟨c.features.map Feature.flat, c.bbox.map Box.flat⟩

/-- The boxes a value carries, those of its parts included. -/
def boxes : GeoJson α → List (Box α)
  | geometry g => g.boxes
  | feature f => f.boxes
  | collection c => c.bbox.toList ++ c.features.flatMap Feature.boxes

/-- No line or polygon inside a list carries a box of its own. -/
def Unboxed : GeoJson α → Prop
  | geometry g => g.Unboxed
  | feature f => f.Unboxed
  | collection c => ∀ f ∈ c.features, f.Unboxed

end GeoJson

/-! ## Encoding, then decoding -/

namespace Document

variable {α : Type}

theorem decodePosition_components (p : Point α) :
    decodePosition p.components = .ok p := by
  obtain ⟨longitude, latitude, altitude⟩ := p
  cases altitude <;> rfl

theorem decodeBox_encodeBox (b : Option (Box α)) :
    decodeBox (encodeBox b) = .ok (b.map Box.flat) := by
  cases b <;> rfl

theorem decodePositions_encodePoints (points : List (Point α)) :
    decodePositions (encodePoints points) = .ok points := by
  rw [decodePositions, encodePoints,
    mapM_map_eq_ok (g := id) decodePosition_components, List.map_id]

theorem decodeRings_encodeRings (rings : List (List (Point α))) :
    decodeRings (encodeRings rings) = .ok rings := by
  rw [decodeRings, encodeRings,
    mapM_map_eq_ok (g := id) decodePositions_encodePoints, List.map_id]

mutual

theorem Geometry.decode_encode (g : Graticule.Geometry α) :
    (Geometry.encode g).decode = .ok g.flat := by
  match g with
  | .point p =>
      simp only [Geometry.encode, Geometry.decode, decodePosition_components]
      rfl
  | .multiPoint ps b =>
      simp only [Geometry.encode, Geometry.decode, decodeBox_encodeBox,
        decodePositions_encodePoints]
      rfl
  | .lineString l =>
      simp only [Geometry.encode, Geometry.decode, decodeBox_encodeBox,
        decodePositions_encodePoints]
      rfl
  | .multiLineString ls b =>
      have line (l : LineString α) :
          (return LineString.mk (← decodePositions (encodePoints l.points)) none)
            = Except.ok (ε := Fault) ⟨l.points, none⟩ := by
        rw [decodePositions_encodePoints]
        rfl
      simp only [Geometry.encode, Geometry.decode, decodeBox_encodeBox]
      rw [mapM_map_eq_ok line]
      rfl
  | .polygon p =>
      simp only [Geometry.encode, Geometry.decode, decodeBox_encodeBox,
        decodeRings_encodeRings]
      rfl
  | .multiPolygon ps b =>
      have area (p : Polygon α) :
          (return Polygon.mk (← decodeRings (encodeRings p.rings)) none)
            = Except.ok (ε := Fault) ⟨p.rings, none⟩ := by
        rw [decodeRings_encodeRings]
        rfl
      simp only [Geometry.encode, Geometry.decode, decodeBox_encodeBox]
      rw [mapM_map_eq_ok area]
      rfl
  | .collection ms b =>
      simp only [Geometry.encode, Geometry.decode, decodeBox_encodeBox,
        Geometry.decodeAll_encodeAll ms]
      rfl

theorem Geometry.decodeAll_encodeAll (gs : List (Graticule.Geometry α)) :
    Geometry.decodeAll (Geometry.encodeAll gs)
      = .ok (Graticule.Geometry.flatAll gs) := by
  match gs with
  | [] => rfl
  | g :: rest =>
      simp only [Geometry.encodeAll, Geometry.decodeAll, Geometry.decode_encode g,
        Geometry.decodeAll_encodeAll rest]
      rfl

end

theorem Feature.decode_encode (f : Graticule.Feature α) :
    (Feature.encode f).decode = .ok f.flat := by
  obtain ⟨geometry, properties, id, bbox⟩ := f
  cases geometry with
  | none =>
      simp only [Feature.encode, Feature.decode, decodeBox_encodeBox]
      rfl
  | some g =>
      simp only [Feature.encode, Feature.decode, Option.map_some,
        Geometry.decode_encode, decodeBox_encodeBox]
      rfl

/-- An encoded value can always be decoded, and is back but for its boxes. -/
theorem decode_encode (v : GeoJson α) : decode (encode v) = .ok v.flat := by
  cases v with
  | geometry g =>
      simp only [encode, decode, Geometry.decode_encode]
      rfl
  | feature f =>
      simp only [encode, decode, Feature.decode_encode]
      rfl
  | collection c =>
      simp only [encode, decode, FeatureCollection.encode,
        FeatureCollection.decode, mapM_map_eq_ok Feature.decode_encode,
        decodeBox_encodeBox]
      rfl

/-! ## Decoded values -/

mutual

theorem Geometry.unboxed_of_decode {d : Geometry α} {g : Graticule.Geometry α}
    (h : d.decode = .ok g) : g.Unboxed := by
  match d with
  | .point p b =>
      simp only [Geometry.decode] at h
      obtain ⟨_, _, h⟩ := bind_eq_ok.mp h
      obtain ⟨p', _, h⟩ := bind_eq_ok.mp h
      cases h
      trivial
  | .multiPoint ps b | .lineString ps b =>
      simp only [Geometry.decode] at h
      obtain ⟨b', _, h⟩ := bind_eq_ok.mp h
      obtain ⟨ps', _, h⟩ := bind_eq_ok.mp h
      cases h
      trivial
  | .polygon rs b =>
      simp only [Geometry.decode] at h
      obtain ⟨b', _, h⟩ := bind_eq_ok.mp h
      obtain ⟨rs', _, h⟩ := bind_eq_ok.mp h
      cases h
      trivial
  | .multiLineString ls b =>
      simp only [Geometry.decode] at h
      obtain ⟨b', _, h⟩ := bind_eq_ok.mp h
      obtain ⟨ls', hls, h⟩ := bind_eq_ok.mp h
      cases h
      refine forall_of_mapM_eq_ok hls fun ps _ l hl => ?_
      obtain ⟨_, _, hl⟩ := bind_eq_ok.mp hl
      cases hl
      rfl
  | .multiPolygon as b =>
      simp only [Geometry.decode] at h
      obtain ⟨b', _, h⟩ := bind_eq_ok.mp h
      obtain ⟨as', has, h⟩ := bind_eq_ok.mp h
      cases h
      refine forall_of_mapM_eq_ok has fun rs _ p hp => ?_
      obtain ⟨_, _, hp⟩ := bind_eq_ok.mp hp
      cases hp
      rfl
  | .collection ms b =>
      simp only [Geometry.decode] at h
      obtain ⟨b', _, h⟩ := bind_eq_ok.mp h
      obtain ⟨ms', hms, h⟩ := bind_eq_ok.mp h
      cases h
      exact Geometry.unboxedAll_of_decodeAll hms

theorem Geometry.unboxedAll_of_decodeAll {ds : List (Geometry α)}
    {gs : List (Graticule.Geometry α)} (h : Geometry.decodeAll ds = .ok gs) :
    Graticule.Geometry.UnboxedAll gs := by
  match ds with
  | [] =>
      simp only [Geometry.decodeAll] at h
      cases h
      trivial
  | d :: rest =>
      simp only [Geometry.decodeAll] at h
      obtain ⟨g, hg, h⟩ := bind_eq_ok.mp h
      obtain ⟨gs', hgs, h⟩ := bind_eq_ok.mp h
      cases h
      exact ⟨Geometry.unboxed_of_decode hg, Geometry.unboxedAll_of_decodeAll hgs⟩

end

theorem Feature.unboxed_of_decode {d : Feature α} {f : Graticule.Feature α}
    (h : d.decode = .ok f) : f.Unboxed := by
  obtain ⟨geometry, properties, id, bbox⟩ := d
  cases geometry with
  | none =>
      simp only [Feature.decode, pure_bind] at h
      obtain ⟨bbox', _, h⟩ := bind_eq_ok.mp h
      cases h
      rintro g ⟨⟩
  | some d =>
      simp only [Feature.decode] at h
      obtain ⟨geometry, hgeometry, h⟩ := bind_eq_ok.mp h
      obtain ⟨g, hg, rfl⟩ := map_eq_ok.mp hgeometry
      obtain ⟨bbox', _, h⟩ := bind_eq_ok.mp h
      cases h
      rintro g' ⟨⟩
      exact Geometry.unboxed_of_decode hg

/-- A value that was decoded has no box where a document has no place for
one. -/
theorem unboxed_of_decode {d : Document α} {v : GeoJson α}
    (h : d.decode = .ok v) : v.Unboxed := by
  cases d with
  | geometry d =>
      obtain ⟨g, hg, rfl⟩ := map_eq_ok.mp h
      exact Geometry.unboxed_of_decode hg
  | feature d =>
      obtain ⟨f, hf, rfl⟩ := map_eq_ok.mp h
      exact Feature.unboxed_of_decode hf
  | collection d =>
      obtain ⟨c, hc, rfl⟩ := map_eq_ok.mp h
      simp only [FeatureCollection.decode] at hc
      obtain ⟨fs, hfs, hc⟩ := bind_eq_ok.mp hc
      obtain ⟨bbox, _, hc⟩ := bind_eq_ok.mp hc
      cases hc
      exact forall_of_mapM_eq_ok hfs fun d _ f hf => Feature.unboxed_of_decode hf

end Document

/-! ## Equality with what comes back -/

namespace Json

mutual

/-- The numbers of a JSON value. -/
def numbers : Json → List JsonNumber
  | number n => [n]
  | array es => elementNumbers es
  | object ms => memberNumbers ms
  | _ => []

/-- The numbers of the elements of an array. -/
def elementNumbers : List Json → List JsonNumber
  | [] => []
  | e :: rest => numbers e ++ elementNumbers rest

/-- The numbers of the members of an object. -/
def memberNumbers : List (String × Json) → List JsonNumber
  | [] => []
  | (_, v) :: rest => numbers v ++ memberNumbers rest

end

mutual

theorem beq_self (j : Json) : beq j j = j.numbers.all fun n => n == n := by
  match j with
  | null => rfl
  | boolean b => simp [beq, numbers]
  | number n => simp [beq, numbers]
  | string s => simp [beq, numbers]
  | array es => exact elementsBeq_self es
  | object ms => exact membersBeq_self ms

theorem elementsBeq_self (es : List Json) :
    elementsBeq es es = (elementNumbers es).all fun n => n == n := by
  match es with
  | [] => rfl
  | e :: rest =>
      rw [elementsBeq, elementNumbers, List.all_append, beq_self e, elementsBeq_self rest]

theorem membersBeq_self (ms : List (String × Json)) :
    membersBeq ms ms = (memberNumbers ms).all fun n => n == n := by
  match ms with
  | [] => rfl
  | (k, v) :: rest =>
      rw [membersBeq, memberNumbers, List.all_append, beq_self v, membersBeq_self rest,
        beq_self_eq_true, Bool.true_and]

end

/-- Bags of properties compare as the members of objects do. -/
theorem properties_beq_eq (ps qs : Properties) : (ps == qs) = membersBeq ps qs := by
  induction ps generalizing qs with
  | nil => cases qs <;> rfl
  | cons m rest ih =>
      cases qs with
      | nil => rfl
      | cons n rest' =>
          rw [List.cons_beq_cons, ih]
          rfl

end Json

/-- The numbers of an identifier. -/
def FeatureId.numbers : FeatureId → List JsonNumber
  | text _ => []
  | number n => [n]

theorem FeatureId.beq_self (id : FeatureId) :
    (id == id) = id.numbers.all fun n => n == n := by
  cases id with
  | text s => exact beq_self_eq_true s
  | number n =>
      show (n == n) = _
      simp [numbers]

theorem FeatureId.optional_beq_self (id : Option FeatureId) :
    (id == id) = (id.toList.flatMap numbers).all fun n => n == n := by
  cases id with
  | none => rfl
  | some id =>
      show (id == id) = _
      simp [beq_self]

/-- The numbers of a feature's identifier and properties. -/
def Feature.numbers {α : Type} (f : Feature α) : List JsonNumber :=
  f.id.toList.flatMap FeatureId.numbers ++ Json.memberNumbers f.properties

/-- The numbers of the identifiers and properties of a value. -/
def GeoJson.numbers {α : Type} : GeoJson α → List JsonNumber
  | geometry _ => []
  | feature f => f.numbers
  | collection c => c.features.flatMap Feature.numbers

section

variable {α : Type} [Scalar α]

namespace Geometry

mutual

/-- A geometry with all boxes in their places is equal to its flat form when
its boxes are flat, and only then. -/
theorem alike_flat [Scalar.LawfulSame α] {g : Geometry α} (h : g.Unboxed) :
    alike g.flat g = g.boxes.all Box.isFlat := by
  match g with
  | .point p =>
      simp [flat, boxes, alike, sameLeaf]
  | .multiPoint ps b =>
      simp only [flat, boxes, alike, sameLeaf, beq_self_eq_true, Bool.true_and,
        Box.map_flat_beq_self]
  | .lineString l =>
      show (l.points == l.points && l.bbox.map Box.flat == l.bbox) = _
      simp only [boxes, beq_self_eq_true, Bool.true_and, Box.map_flat_beq_self]
  | .multiLineString ls b =>
      have hls : (ls.map fun l => (⟨l.points, none⟩ : LineString α)) = ls :=
        (List.map_congr_left fun l hl => by rw [← h l hl]; rfl).trans (List.map_id ls)
      have hboxes : (ls.flatMap fun l => l.bbox.toList) = [] := by
        simpa using fun l hl => h l hl
      simp only [flat, boxes, alike, sameLeaf, hls, hboxes, beq_self_eq_true,
        Bool.true_and, Box.map_flat_beq_self, List.append_nil]
  | .polygon p =>
      show (p.rings == p.rings && p.bbox.map Box.flat == p.bbox) = _
      simp only [boxes, beq_self_eq_true, Bool.true_and, Box.map_flat_beq_self]
  | .multiPolygon ps b =>
      have hps : (ps.map fun p => (⟨p.rings, none⟩ : Polygon α)) = ps :=
        (List.map_congr_left fun p hp => by rw [← h p hp]; rfl).trans (List.map_id ps)
      have hboxes : (ps.flatMap fun p => p.bbox.toList) = [] := by
        simpa using fun p hp => h p hp
      simp only [flat, boxes, alike, sameLeaf, hps, hboxes, beq_self_eq_true,
        Bool.true_and, Box.map_flat_beq_self, List.append_nil]
  | .collection ms b =>
      simp only [flat, boxes, alike, List.all_append, Box.map_flat_beq_self,
        alikeMembers_flatAll h]

theorem alikeMembers_flatAll [Scalar.LawfulSame α] {gs : List (Geometry α)}
    (h : UnboxedAll gs) :
    alikeMembers (flatAll gs) gs = (boxesAll gs).all Box.isFlat := by
  match gs with
  | [] => rfl
  | g :: rest =>
      obtain ⟨hg, hrest⟩ := h
      simp only [flatAll, boxesAll, alikeMembers, List.all_append, alike_flat hg,
        alikeMembers_flatAll hrest]

end

variable [Scalar.LawfulSame α]

theorem flat_beq_self {g : Geometry α} (h : g.Unboxed) :
    (g.flat == g) = g.boxes.all Box.isFlat := by
  rw [beq_eq_alike, alike_flat h]

end Geometry

variable [Scalar.LawfulSame α]

theorem Feature.flat_beq_self {f : Feature α} (h : f.Unboxed) :
    (f.flat == f) = ((f.numbers.all fun n => n == n) && f.boxes.all Box.isFlat) := by
  obtain ⟨geometry, properties, id, bbox⟩ := f
  have hgeometry : (geometry.map Geometry.flat == geometry)
      = (geometry.toList.flatMap Geometry.boxes).all Box.isFlat := by
    cases geometry with
    | none => rfl
    | some g =>
        show (g.flat == g) = _
        simp [Geometry.flat_beq_self (h g rfl)]
  show (id == id && geometry.map Geometry.flat == geometry
    && properties == properties && bbox.map Box.flat == bbox) = _
  rw [FeatureId.optional_beq_self, hgeometry, Json.properties_beq_eq, Json.membersBeq_self,
    Box.map_flat_beq_self]
  simp only [numbers, boxes, List.all_append]
  ac_rfl

theorem Feature.map_flat_beq_self {fs : List (Feature α)} (h : ∀ f ∈ fs, f.Unboxed) :
    (fs.map flat == fs)
      = (((fs.flatMap numbers).all fun n => n == n) && (fs.flatMap boxes).all Box.isFlat) := by
  induction fs with
  | nil => rfl
  | cons f rest ih =>
      obtain ⟨hf, hrest⟩ := List.forall_mem_cons.mp h
      rw [List.map_cons, List.cons_beq_cons, flat_beq_self hf, ih hrest, List.flatMap_cons,
        List.flatMap_cons, List.all_append, List.all_append]
      ac_rfl

/-- A value with all boxes in their places is equal to its flat form when its
boxes are flat and its numbers equal themselves, and only then. -/
theorem GeoJson.flat_beq_self {v : GeoJson α} (h : v.Unboxed) :
    (v.flat == v) = ((v.numbers.all fun n => n == n) && v.boxes.all Box.isFlat) := by
  cases v with
  | geometry g => exact Geometry.flat_beq_self h
  | feature f => exact Feature.flat_beq_self h
  | collection c =>
      show (c.features.map Feature.flat == c.features
        && c.bbox.map Box.flat == c.bbox) = _
      rw [Feature.map_flat_beq_self h, Box.map_flat_beq_self]
      simp only [numbers, boxes, List.all_append]
      ac_rfl

end

/-! ## Values that were read -/

/-- What is decoded from a document comes back from being encoded with its
boxes flat. So it comes back equal exactly when no box of it has an altitude at
a corner, unless a number among its properties is not even equal to itself. -/
theorem Document.decode_encode_of_decode {d : Document Float} {v : GeoJson Float}
    (h : d.decode = .ok v) :
    ∃ w, (encode v).decode = .ok w ∧ w = v.flat
      ∧ ((w == v) = true
          ↔ (∀ n ∈ v.numbers, (n == n) = true) ∧ ∀ b ∈ v.boxes, b.isFlat = true) := by
  refine ⟨v.flat, decode_encode v, rfl, ?_⟩
  rw [GeoJson.flat_beq_self (unboxed_of_decode h), Bool.and_eq_true, List.all_eq_true,
    List.all_eq_true]

/-- A feature whose own box was read from four numbers, and whose geometry
holds a line with a box read from six. -/
theorem Document.decode_encode_of_nested_boxes :
    let line (bbox : Option (Box Float)) : Graticule.Geometry Float :=
      .lineString ⟨[⟨0, 0, none⟩, ⟨4, 3, some 2⟩], bbox⟩
    let value (bbox : Option (Box Float)) : GeoJson Float := .feature
      { geometry := some (.collection [.point ⟨1, 2, none⟩, line bbox] none)
        properties := [("name", .string "a"), ("width", .number (.real 1.5))]
        id := some (.number (.whole 7))
        bbox := some (.ofSides 0 0 4 3) }
    let v := value (some ⟨⟨0, 0, some 1⟩, ⟨4, 3, some 2⟩⟩)
    let d : Document Float := .feature
      { geometry := some (.collection
          [.point [1, 2] none, .lineString [[0, 0], [4, 3, 2]] (some [0, 0, 1, 4, 3, 2])]
          none)
        properties := some [("name", .string "a"), ("width", .number (.real 1.5))]
        id := some (.number (.whole 7))
        bbox := some [0, 0, 4, 3] }
    d.decode = .ok v
      ∧ ∃ w, (encode v).decode = .ok w ∧ w = v.flat
        ∧ ((w == v) = true
            ↔ (∀ n ∈ v.numbers, (n == n) = true) ∧ ∀ b ∈ v.boxes, b.isFlat = true) := by
  intro line value v d
  exact ⟨rfl, decode_encode_of_decode (d := d) rfl⟩

/-- The box of a line that is read from six numbers is written as four, and
what is read back is another line. -/
theorem Document.decode_encode_of_six_numbers :
    ∃ v w, (Document.geometry (.lineString [[0, 0], [4, 3]]
          (some [0, 0, 1, 4, 3, 2]) : Document.Geometry Float)).decode = .ok v
      ∧ (encode v).decode = .ok w ∧ (w == v) = false := by
  let line (bbox : Box Float) : Graticule.Geometry Float :=
    .lineString ⟨[⟨0, 0, none⟩, ⟨4, 3, none⟩], some bbox⟩
  refine ⟨.geometry (line ⟨⟨0, 0, some 1⟩, ⟨4, 3, some 2⟩⟩),
    .geometry (line (.ofSides 0 0 4 3)), rfl, rfl, ?_⟩
  show (line _ == line _) = false
  rw [Geometry.beq_eq_alike]
  rfl

end Graticule
