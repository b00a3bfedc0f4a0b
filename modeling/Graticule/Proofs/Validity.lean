import Graticule.Coordinates
import Graticule.Proofs.Leaves
import Graticule.Scalar.Binary64
import Graticule.Validation

/-!
# A check finds what the recursion finds

The walk over a nested geometry keeps a table of the members it has met and a
list of geometries still to be looked at. A member's way down is read off the
table only when a flaw is found in it, and by then many more members may have
been met. That is harmless, because the table only grows: `climb_push` says a
new member leaves the way down to the others alone, and `climb_new` says that
its own is one step longer than that of its collection.

`ahead` is what a walk has still to report, by recursion on each pending
geometry, seen from where the walk started. Entering a collection turns the
recursion on it into the recursion on its members, in order, since they are met
from the last to the first; a leaf hands over its flaws. So what has been found
and what is ahead stay together the flaws of the whole, and `flaws_eq` follows.

What is left is about single geometries. Each part reports nothing just when
nothing is wrong with it, and `Geometry.Sound` says that of all the parts a
nested geometry reaches.
-/

namespace Graticule

variable {α : Type} [Scalar α]

/-! ## The way down to a member -/

namespace Members

theorem climb_append (ms : Members) (xs ys : List Step) (entry : Option Nat)
    (h : ms.Has entry) : ms.climb (xs ++ ys) entry h = ms.climb xs entry h ++ ys := by
  fun_induction climb ms xs entry h with
  | case1 => rw [climb]
  | case2 xs id h hid _ ih => rw [climb, ← List.cons_append, ih]

theorem climb_push (ms : Members) {entry : Option Nat} (hentry : ms.Has entry) (index : Nat)
    (steps : List Step) (e : Option Nat) (he : ms.Has e) :
    (ms.push entry hentry index).climb steps e he.push = ms.climb steps e he := by
  fun_induction climb ms steps e he with
  | case1 => rw [climb]
  | case2 steps id h hid _ ih =>
      have hnew : id < (ms.push entry hentry index).links.size := h.push id rfl
      have hlink : (ms.push entry hentry index).links[id] = ms.links[id] :=
        Array.getElem_push_lt hid
      rw [climb, ← ih]
      simp only [hlink]

theorem climb_new (ms : Members) {entry : Option Nat} (hentry : ms.Has entry) (index : Nat) :
    (ms.push entry hentry index).climb [] (some ms.links.size) has_size_push
      = ms.climb [] entry hentry ++ [⟨.collection, index⟩] := by
  have hnew : ms.links.size < (ms.push entry hentry index).links.size := has_size_push _ rfl
  have hlink : (ms.push entry hentry index).links[ms.links.size] = (entry, index) :=
    Array.getElem_push_eq
  rw [climb, ← climb_append, List.nil_append, ← climb_push ms hentry index]
  simp only [hlink]

end Members

omit [Scalar α] in
theorem Flaw.below_append (xs ys : List Step) (f : Flaw α) :
    f.below (xs ++ ys) = (f.below ys).below xs := by
  rw [below, below, below, List.append_assoc]

/-! ## What a walk has ahead -/

namespace Walk

/-- The flaws of what is pending, each seen from where the walk started. -/
def ahead (members : Members) : (pending : List (Option Nat × Geometry α)) →
    (∀ q ∈ pending, members.Has q.1) → List (Flaw α)
  | [], _ => []
  | (entry, g) :: rest, known =>
    (Geometry.flawList g).map (Flaw.below (members.climb [] entry (known_head known)))
      ++ ahead members rest (known_tail known)

theorem ahead_push (members : Members) {entry : Option Nat} (h : members.Has entry)
    (index : Nat) (pending : List (Option Nat × Geometry α))
    (known : ∀ q ∈ pending, members.Has q.1) :
    ahead (members.push entry h index) pending (fun q hq => (known q hq).push)
      = ahead members pending known := by
  induction pending with
  | nil => rfl
  | cons q rest ih =>
      rw [ahead, ahead, ih, Members.climb_push]

theorem ahead_meet (w : Walk α) (entry : Option Nat) (h : w.members.Has entry)
    (m : Geometry α × Nat) :
    ahead _ _ (w.meet entry h m).known
      = ((Geometry.flawList m.1).map (Flaw.inside ⟨.collection, m.2⟩)).map
          (Flaw.below (w.members.climb [] entry h))
        ++ ahead _ _ w.known := by
  have hbelow : Flaw.below (w.members.climb [] entry h ++ [⟨.collection, m.2⟩])
      = Flaw.below (α := α) (w.members.climb [] entry h) ∘ Flaw.inside ⟨.collection, m.2⟩ := by
    funext f
    exact f.below_append _ _
  simp only [meet, ahead]
  rw [ahead_push, Members.climb_new, hbelow, List.map_map]

/-- Entering a collection leaves the flaws of its members ahead, in order. -/
theorem ahead_enter (w : Walk α) (entry : Option Nat) (h : w.members.Has entry)
    (ms : List (Geometry α × Nat)) :
    ahead _ _ (w.enter entry h ms).known
      = (ms.reverse.flatMap fun m =>
          (Geometry.flawList m.1).map (Flaw.inside ⟨.collection, m.2⟩)).map
            (Flaw.below (w.members.climb [] entry h))
        ++ ahead _ _ w.known := by
  induction ms generalizing w with
  | nil => rfl
  | cons m rest ih =>
      have hclimb : (w.meet entry h m).members.climb [] entry (has_meet h)
          = w.members.climb [] entry h := w.members.climb_push h m.2 [] entry h
      rw [enter, ih, ahead_meet, hclimb, List.reverse_cons, List.flatMap_append,
        List.map_append, List.append_assoc, List.flatMap_singleton]

end Walk

namespace Geometry

/-! ## The walk is the recursion -/

theorem flawList_of_members?_eq_none {g : Geometry α} (h : g.members? = none) :
    flawList g = g.leafFlaws := by
  cases g with
  | collection members bbox => cases h
  | _ => rfl

theorem flawList_of_members?_eq_some {g : Geometry α} {members : List (Geometry α)}
    (h : g.members? = some members) : flawList g = flawLists 0 members := by
  cases g <;> cases h
  rfl

theorem flawLists_eq (n : Nat) (gs : List (Geometry α)) :
    flawLists n gs
      = (gs.zipIdx n).flatMap fun m => (flawList m.1).map (Flaw.inside ⟨.collection, m.2⟩) := by
  induction gs generalizing n with
  | nil => rfl
  | cons g rest ih => rw [flawLists, ih, List.zipIdx_cons, List.flatMap_cons]

/-- A walk lays down the flaws it has ahead. -/
theorem layFlaws_eq (found : List (Flaw α)) (w : Walk α) :
    layFlaws found w = (Walk.ahead _ _ w.known).reverse ++ found := by
  fun_induction layFlaws found w with
  | case1 => rfl
  | case2 found members entry g rest known w hentry gs hgs ih =>
      rw [ih, Walk.ahead_enter, List.reverse_reverse, ← flawLists_eq, Walk.ahead,
        flawList_of_members?_eq_some hgs]
  | case3 found members entry g rest known w hentry hleaf hsound ih =>
      rw [ih, Walk.ahead, flawList_of_members?_eq_none hleaf, hsound]
      rfl
  | case4 found members entry g rest known w hentry hleaf path hflaws ih =>
      rw [ih, Walk.ahead, flawList_of_members?_eq_none hleaf, List.reverse_append,
        List.reverseAux_eq, List.append_assoc]

/-- The flaws a walk finds are those found by recursion. -/
theorem flaws_eq (g : Geometry α) : g.flaws = flawList g := by
  have hbelow : Flaw.below (α := α) [] = id := rfl
  rw [flaws, layFlaws_eq, List.append_nil, List.reverse_reverse]
  simp only [Walk.start, Walk.ahead, Members.climb, hbelow, List.map_id, List.append_nil]

theorem flaws_collection (members : List (Geometry α)) (bbox : Option (Box α)) :
    (collection members bbox).flaws
      = members.zipIdx.flatMap fun m => m.1.flaws.map (Flaw.inside ⟨.collection, m.2⟩) := by
  rw [flaws_eq, flawList, flawLists_eq]
  simp only [flaws_eq]

end Geometry

/-! ## Soundness of one geometry -/

theorem forall_mem_zipIdx_fst {β : Type} {P : β → Prop} {xs : List β} :
    (∀ q ∈ xs.zipIdx, P q.1) ↔ ∀ x ∈ xs, P x := by
  rw [← List.forall_mem_map, List.zipIdx_map_fst]

theorem entryFlaws_eq_nil_iff {kind : Geometry.Kind} {points : List (Point α)} :
    entryFlaws kind points = [] ↔ ∀ p ∈ points, p.isFinite = true := by
  rw [entryFlaws, List.filterMap_eq_nil_iff]
  refine .trans ?_ (forall_mem_zipIdx_fst (P := fun p : Point α => p.isFinite = true))
  simp

theorem LineString.flaws_eq_nil_iff {l : LineString α} :
    l.flaws = [] ↔ 2 ≤ l.points.length ∧ ∀ p ∈ l.points, p.isFinite = true := by
  rw [LineString.flaws]
  split
  · next hshort => exact iff_of_false (by simp) fun h => absurd h.1 (by omega)
  · next hlong => rw [entryFlaws_eq_nil_iff, and_iff_right (by omega)]

theorem ringDefects_eq_nil_iff {ring : List (Point α)} :
    ringDefects ring = []
      ↔ (4 ≤ ring.length ∧ (ring.head? == ring.getLast?) = true)
        ∧ ∀ p ∈ ring, p.isFinite = true := by
  simp only [ringDefects, List.append_eq_nil_iff, ite_eq_right_iff, ite_eq_left_iff,
    imp_false, List.cons_ne_nil, Decidable.not_not, List.all_eq_true, Nat.not_lt]

theorem Polygon.flaws_eq_nil_iff {p : Polygon α} :
    p.flaws = [] ↔ p.rings ≠ [] ∧ ∀ ring ∈ p.rings, ringDefects ring = [] := by
  obtain ⟨rings, bbox⟩ := p
  cases rings with
  | nil => simp [Polygon.flaws, Polygon.outer?]
  | cons outer holes =>
      simp only [Polygon.flaws, Polygon.outer?, Polygon.holes, List.head?_cons,
        List.tail_cons, List.append_eq_nil_iff, List.flatMap_eq_nil_iff, ringFlaws,
        List.map_eq_nil_iff, List.forall_mem_cons]
      rw [forall_mem_zipIdx_fst (P := fun ring => ringDefects ring = [])]
      simp

namespace Geometry

/-- The lines of a geometry that is not a collection. -/
def leafLines : Geometry α → List (LineString α)
  | lineString l => [l]
  | multiLineString ls _ => ls
  | _ => []

/-- The polygons of a geometry that is not a collection. -/
def leafAreas : Geometry α → List (Polygon α)
  | polygon p => [p]
  | multiPolygon ps _ => ps
  | _ => []

/-- A geometry that is not a collection has no flaw when all its points are
finite, its lines long enough, and its polygons made of closed rings. -/
theorem leafFlaws_eq_nil_iff {g : Geometry α} :
    g.leafFlaws = [] ↔ (∀ p ∈ leafPoints false g, p.isFinite = true)
      ∧ (∀ l ∈ leafLines g, 2 ≤ l.points.length)
      ∧ (∀ a ∈ leafAreas g, a.rings ≠ [])
      ∧ ∀ a ∈ leafAreas g, ∀ r ∈ a.rings,
        4 ≤ r.length ∧ (r.head? == r.getLast?) = true := by
  have hinside {β : Type} (step : β × Nat → Step) (flaws : β → List (Flaw α)) (xs : List β) :
      (xs.zipIdx.flatMap fun q => (flaws q.1).map (Flaw.inside (step q))) = []
        ↔ ∀ x ∈ xs, flaws x = [] := by
    simp only [List.flatMap_eq_nil_iff, List.map_eq_nil_iff]
    exact forall_mem_zipIdx_fst (P := fun x => flaws x = [])
  cases g with
  | point p => simp [leafFlaws, leafPoints, leafLines, leafAreas]
  | multiPoint ps b =>
      simp [leafFlaws, leafPoints, leafLines, leafAreas, entryFlaws_eq_nil_iff]
  | lineString l =>
      simp [leafFlaws, leafPoints, leafLines, leafAreas, LineString.flaws_eq_nil_iff,
        and_comm]
  | multiLineString ls b =>
      rw [leafFlaws, hinside (fun q => ⟨.multiLineString, q.2⟩)]
      simp [leafPoints, leafLines, leafAreas, LineString.flaws_eq_nil_iff]
      grind
  | polygon p =>
      simp [leafFlaws, leafPoints, leafLines, leafAreas, ringPoints,
        Polygon.flaws_eq_nil_iff, ringDefects_eq_nil_iff]
      grind
  | multiPolygon ps b =>
      rw [leafFlaws, hinside (fun q => ⟨.multiPolygon, q.2⟩)]
      simp [leafPoints, leafLines, leafAreas, ringPoints,
        Polygon.flaws_eq_nil_iff, ringDefects_eq_nil_iff]
      grind
  | collection ms b => simp [leafFlaws, leafPoints, leafLines, leafAreas]

/-! ## Soundness of nested geometries -/

mutual

theorem flawList_eq_nil_iff {g : Geometry α} :
    flawList g = [] ↔ ∀ l ∈ leafList g, l.leafFlaws = [] := by
  match g with
  | .collection members _ =>
      rw [flawList, leafList]
      exact flawLists_eq_nil_iff
  | .point _ | .multiPoint .. | .lineString _ | .multiLineString .. | .polygon _
  | .multiPolygon .. => simp [flawList, leafList]

theorem flawLists_eq_nil_iff {gs : List (Geometry α)} {n : Nat} :
    flawLists n gs = [] ↔ ∀ l ∈ leafLists gs, l.leafFlaws = [] := by
  match gs with
  | [] => simp [flawLists, leafLists]
  | g :: rest =>
      rw [flawLists, leafLists, List.append_eq_nil_iff, List.map_eq_nil_iff,
        flawList_eq_nil_iff, flawLists_eq_nil_iff, List.forall_mem_append]

end

/-- The lines of a geometry, those inside its members included. -/
def lines (g : Geometry α) : List (LineString α) := g.leaves.flatMap leafLines

/-- The polygons of a geometry, those inside its members included. -/
def areas (g : Geometry α) : List (Polygon α) := g.leaves.flatMap leafAreas

/-- Nothing is wrong with a geometry, at any depth. -/
structure Sound (g : Geometry α) : Prop where
  /-- Every point is finite. -/
  finite : ∀ p ∈ g.coordinates false, p.isFinite = true
  /-- Every line has two points or more. -/
  long : ∀ l ∈ g.lines, 2 ≤ l.points.length
  /-- Every polygon has an outer ring. -/
  bounded : ∀ a ∈ g.areas, a.rings ≠ []
  /-- Every ring has four points or more and ends where it starts. -/
  closed : ∀ a ∈ g.areas, ∀ r ∈ a.rings, 4 ≤ r.length ∧ (r.head? == r.getLast?) = true

/-- A geometry without a flaw is a sound one. -/
theorem flaws_eq_nil_iff {g : Geometry α} : g.flaws = [] ↔ g.Sound := by
  rw [flaws_eq, flawList_eq_nil_iff, ← leaves_eq]
  simp only [leafFlaws_eq_nil_iff]
  constructor
  · intro h
    refine ⟨?_, ?_, ?_, ?_⟩
    · exact List.forall_mem_flatMap.mpr fun l hl => (h l hl).1
    · exact List.forall_mem_flatMap.mpr fun l hl => (h l hl).2.1
    · exact List.forall_mem_flatMap.mpr fun l hl => (h l hl).2.2.1
    · exact List.forall_mem_flatMap.mpr fun l hl => (h l hl).2.2.2
  · intro h l hl
    exact ⟨List.forall_mem_flatMap.mp h.finite l hl, List.forall_mem_flatMap.mp h.long l hl,
      List.forall_mem_flatMap.mp h.bounded l hl, List.forall_mem_flatMap.mp h.closed l hl⟩

/-! ## The report -/

theorem validate_eq (g : Geometry Float) :
    g.validate = ⟨g.flaws.isEmpty, g.flaws.map Flaw.issue⟩ := by
  rw [validate]
  cases g.flaws <;> rfl

end Geometry

/-- The issue as seen from a collection around the member it was found in. -/
def Issue.inMember (index : Nat) (issue : Issue) : Issue :=
  { issue with location := "GeometryCollection[" ++ toString index ++ "]." ++ issue.location }

theorem Step.text_collection (index : Nat) :
    Step.text ⟨.collection, index⟩
      = "GeometryCollection[" ++ toString index ++ "]." := by
  have hopen : "GeometryCollection" ++ "[" = "GeometryCollection[" := rfl
  have hclose : "]" ++ "." = "]." := rfl
  rw [← hopen, ← hclose, ← String.append_assoc]
  rfl

theorem Flaw.issue_inside_collection (f : Flaw Float) (index : Nat) :
    (f.inside ⟨.collection, index⟩).issue = f.issue.inMember index := by
  have hlocation : (f.inside ⟨.collection, index⟩).location
      = Step.text ⟨.collection, index⟩ ++ f.location := rfl
  rw [Flaw.issue, hlocation, Step.text_collection]
  rfl

namespace Geometry

/-- A check reports the issues of a collection's members in order, each with the
member's number in front of its location, and those of any other geometry as
they are; and it finds a geometry valid when it reports nothing, which is when
the geometry is sound. -/
theorem validate_errors (g : Geometry Float) :
    g.validate.errors = (match g with
      | .collection members _ => members.zipIdx.flatMap fun m =>
          m.1.validate.errors.map (Issue.inMember m.2)
      | leaf => leaf.leafFlaws.map Flaw.issue)
    ∧ (g.validate.isValid = true ↔ g.validate.errors = [])
    ∧ (g.validate.errors = [] ↔ g.Sound) := by
  refine ⟨?_, ?_, ?_⟩
  · cases g with
    | collection members bbox =>
        simp only [validate_eq, flaws_collection, List.map_flatMap, List.map_map]
        congr 1
        funext m
        exact List.map_congr_left fun f _ => f.issue_inside_collection m.2
    | _ =>
        rw [validate_eq, flaws_eq]
        rfl
  · rw [validate_eq, List.isEmpty_iff, List.map_eq_nil_iff]
  · rw [validate_eq, List.map_eq_nil_iff, flaws_eq_nil_iff]

end Geometry

end Graticule
