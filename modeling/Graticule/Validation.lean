import Graticule.Decimal.Layout
import Graticule.Geometry

/-!
# Validation

A geometry is sound when every point is finite, every line has two points or
more, every polygon has an outer ring, and every ring has four points or more
and ends where it starts. Every flaw is reported, in the order of the document,
with the place it is in; nothing is mended.

The members of collections are found with a list of geometries still to be
looked at, so collections may be nested to any depth. A member that is met gets
an entry in a table, which knows the entry of the collection around it and the
member's number there. Where a flaw is found, the way down to it is made by
climbing from entry to entry; every entry leads to an earlier one, so the climb
ends. `flawList` says by recursion what the walk finds: a flaw inside a part of
a geometry is reported from there up, with one more step in front for every
collection around it.

A flaw is a value of its own, and its text is made last.
-/

namespace Graticule

/-! ## Flaws -/

/-- What is wrong with a part of a geometry. -/
inductive Defect where
  /-- A coordinate is infinite or not a number. -/
  | notFinite
  /-- A line has this many points, fewer than two. -/
  | shortLine (found : Nat)
  /-- A ring has this many points, fewer than four. -/
  | shortRing (found : Nat)
  /-- A ring does not end where it starts. -/
  | openRing
  /-- A polygon has no rings. -/
  | noOuterRing
deriving DecidableEq, Repr

/-- The part of a geometry a flaw is in. -/
inductive Place (α : Type) where
  /-- A geometry that is just this point. -/
  | point (position : Point α)
  /-- A geometry of this kind as a whole. -/
  | whole (kind : Geometry.Kind)
  /-- A point of a geometry of this kind, by its number. -/
  | entry (kind : Geometry.Kind) (index : Nat)
  /-- The outer ring of a polygon. -/
  | outerRing
  /-- A hole of a polygon, by its number. -/
  | hole (index : Nat)

/-- A step from a geometry of some kind to one of the geometries in it, by its
number. -/
structure Step where
  /-- The kind of the geometry that is entered. -/
  kind : Geometry.Kind
  /-- The number of the geometry in it. -/
  index : Nat
deriving DecidableEq, Repr

/-- A defect, with the place it is in and the steps that lead there. -/
structure Flaw (α : Type) where
  /-- The steps to the geometry, the outermost first. -/
  steps : List Step := []
  /-- The part of that geometry. -/
  place : Place α
  /-- What is wrong with it. -/
  defect : Defect

variable {α : Type}

/-- The flaw as seen from the geometry around the one it was found in. -/
def Flaw.inside (step : Step) (f : Flaw α) : Flaw α :=
  { f with steps := step :: f.steps }

/-- The flaw as seen from the start of some steps down. -/
def Flaw.below (path : List Step) (f : Flaw α) : Flaw α :=
  { f with steps := path ++ f.steps }

/-! ## Flaws of one geometry -/

section

variable [Scalar α]

/-- The flaws of the points of a geometry of some kind. -/
def entryFlaws (kind : Geometry.Kind) (points : List (Point α)) :
    List (Flaw α) :=
  points.zipIdx.filterMap fun (p, i) =>
    if p.isFinite then none
    else some { place := .entry kind i, defect := .notFinite }

/-- The flaws of a line. The points of one that is too short are not looked
at. -/
def LineString.flaws (l : LineString α) : List (Flaw α) :=
  if l.points.length < 2 then
    [{ place := .whole .lineString, defect := .shortLine l.points.length }]
  else entryFlaws .lineString l.points

/-- The defects of a ring. -/
def ringDefects (ring : List (Point α)) : List Defect :=
  (if ring.length < 4 then [.shortRing ring.length] else [])
    ++ (if ring.head? == ring.getLast? then [] else [.openRing])
    ++ (if ring.all Point.isFinite then [] else [.notFinite])

/-- The flaws of a ring in its place. -/
def ringFlaws (place : Place α) (ring : List (Point α)) : List (Flaw α) :=
  (ringDefects ring).map fun defect => { place, defect }

/-- The flaws of a polygon. -/
def Polygon.flaws (p : Polygon α) : List (Flaw α) :=
  match p.outer? with
  | none => [{ place := .whole .polygon, defect := .noOuterRing }]
  | some outer =>
    ringFlaws .outerRing outer
      ++ p.holes.zipIdx.flatMap fun (ring, i) => ringFlaws (.hole i) ring

namespace Geometry

/-- The flaws of a geometry that is not a collection. -/
def leafFlaws : Geometry α → List (Flaw α)
  | point p =>
    if p.isFinite then [] else [{ place := .point p, defect := .notFinite }]
  | multiPoint ps _ => entryFlaws .multiPoint ps
  | lineString l => l.flaws
  | multiLineString ls _ =>
    ls.zipIdx.flatMap fun (l, i) =>
      l.flaws.map (Flaw.inside ⟨.multiLineString, i⟩)
  | polygon p => p.flaws
  | multiPolygon ps _ =>
    ps.zipIdx.flatMap fun (p, i) =>
      p.flaws.map (Flaw.inside ⟨.multiPolygon, i⟩)
  | collection .. => []

end Geometry

end

/-! ## Members of collections -/

/-- The members of collections met on a walk. Each is held with the entry of
the collection it is in, where that is a member itself, and with its number
there. A member comes after the collection it is in. -/
structure Members where
  /-- The entries, in the order they were met. -/
  links : Array (Option Nat × Nat)
  /-- An entry leads to an earlier one. -/
  earlier : ∀ id, (h : id < links.size) → ∀ parent ∈ links[id].1, parent < id

namespace Members

/-- No members. -/
def empty : Members := ⟨#[], fun id h => absurd h (Nat.not_lt_zero id)⟩

/-- A geometry has been met, if it is a member. -/
def Has (ms : Members) (entry : Option Nat) : Prop :=
  ∀ id ∈ entry, id < ms.links.size

/-- One more member, of the collection at an entry. -/
def push (ms : Members) (entry : Option Nat) (h : ms.Has entry) (index : Nat) :
    Members where
  links := ms.links.push (entry, index)
  earlier id hid parent hparent := by
    rw [Array.getElem_push] at hparent
    split at hparent
    · next hold => exact ms.earlier id hold parent hparent
    · next hnew =>
        have := h parent hparent
        omega

theorem Has.push {ms : Members} {entry e : Option Nat} (he : ms.Has e)
    {h : ms.Has entry} {index : Nat} : (ms.push entry h index).Has e := by
  intro id hid
  rw [Members.push, Array.size_push]
  exact Nat.lt_succ_of_lt (he id hid)

theorem has_size_push {ms : Members} {entry : Option Nat} {h : ms.Has entry}
    {index : Nat} : (ms.push entry h index).Has (some ms.links.size) := by
  intro id hid
  cases hid
  rw [push, Array.size_push]
  exact Nat.lt_succ_self _

theorem Has.parent {ms : Members} {id : Nat} (h : id < ms.links.size) :
    ms.Has ms.links[id].1 :=
  fun parent hparent => Nat.lt_trans (ms.earlier id h parent hparent) h

/-- Climbs from an entry to the collections around it, laying the step down
from each in front of those already known. -/
def climb (ms : Members) (steps : List Step) :
    (entry : Option Nat) → ms.Has entry → List Step
  | none, _ => steps
  | some id, h =>
    have hid : id < ms.links.size := h id rfl
    ms.climb (⟨.collection, ms.links[id].2⟩ :: steps) ms.links[id].1 (.parent hid)
termination_by entry => entry.elim 0 (· + 1)
decreasing_by
  have hparent := ms.earlier id hid
  cases hlink : ms.links[id].1 with
  | none => exact Nat.succ_pos id
  | some parent => exact Nat.succ_lt_succ (hparent parent hlink)

end Members

/-! ## Flaws of nested geometries -/

/-- A walk over nested geometries: the members met so far, and the geometries
still to be looked at, each with its entry. -/
structure Walk (α : Type) where
  /-- The members met. -/
  members : Members
  /-- What is still to be looked at. -/
  pending : List (Option Nat × Geometry α)
  /-- What is pending has been met. -/
  known : ∀ q ∈ pending, members.Has q.1

namespace Walk

/-- Meets a member of the collection at an entry. -/
def meet (w : Walk α) (entry : Option Nat) (h : w.members.Has entry)
    (m : Geometry α × Nat) : Walk α where
  members := w.members.push entry h m.2
  pending := (some w.members.links.size, m.1) :: w.pending
  known := List.forall_mem_cons.mpr
    ⟨Members.has_size_push, fun q hq => (w.known q hq).push⟩

theorem has_meet {w : Walk α} {entry e : Option Nat} {h : w.members.Has entry}
    {m : Geometry α × Nat} (he : w.members.Has e) : (w.meet entry h m).members.Has e :=
  Members.Has.push (h := h) he

/-- Meets members of the collection at an entry, one after the other. The last
one met is the first one to be looked at. -/
def enter (w : Walk α) (entry : Option Nat) (h : w.members.Has entry) :
    List (Geometry α × Nat) → Walk α
  | [] => w
  | m :: rest => (w.meet entry h m).enter entry (has_meet h) rest

/-- A walk from a geometry that is no member. -/
def start (g : Geometry α) : Walk α where
  members := .empty
  pending := [(none, g)]
  known q hq id hid := by
    rw [List.mem_singleton.mp hq] at hid
    cases hid

/-- The pending geometries, measured together. -/
def size (w : Walk α) : Nat := Geometry.sizeSum (w.pending.map Prod.snd)

theorem size_meet (w : Walk α) (entry : Option Nat) (h : w.members.Has entry)
    (m : Geometry α × Nat) : (w.meet entry h m).size = m.1.size + w.size := rfl

theorem size_enter (w : Walk α) (entry : Option Nat) (h : w.members.Has entry)
    (ms : List (Geometry α × Nat)) :
    (w.enter entry h ms).size = Geometry.sizeSum (ms.map Prod.fst) + w.size := by
  induction ms generalizing w with
  | nil => simp [enter, Geometry.sizeSum]
  | cons m rest ih =>
      rw [enter, ih, size_meet, List.map_cons, Geometry.sizeSum]
      omega

theorem known_head {members : Members} {entry : Option Nat} {g : Geometry α}
    {rest : List (Option Nat × Geometry α)}
    (known : ∀ q ∈ (entry, g) :: rest, members.Has q.1) : members.Has entry :=
  known _ (.head _)

theorem known_tail {members : Members} {entry : Option Nat} {g : Geometry α}
    {rest : List (Option Nat × Geometry α)}
    (known : ∀ q ∈ (entry, g) :: rest, members.Has q.1) :
    ∀ q ∈ rest, members.Has q.1 :=
  fun q hq => known q (.tail _ hq)

end Walk

namespace Geometry

theorem sizeSum_reverse (gs : List (Geometry α)) : sizeSum gs.reverse = sizeSum gs := by
  induction gs with
  | nil => rfl
  | cons g rest ih =>
      rw [List.reverse_cons, sizeSum_append, ih, sizeSum, sizeSum, sizeSum]
      omega

/-- The members of a collection. -/
def members? : Geometry α → Option (List (Geometry α))
  | collection members _ => some members
  | _ => none

theorem sizeSum_lt_of_members? {g : Geometry α} {members : List (Geometry α)}
    (h : g.members? = some members) : sizeSum members < g.size := by
  cases g <;> cases h
  rw [size]
  omega

variable [Scalar α]

/-- Lays the flaws of what a walk has still to look at onto those already found,
the last one found on top. -/
def layFlaws (found : List (Flaw α)) : Walk α → List (Flaw α)
  | ⟨_, [], _⟩ => found
  | ⟨members, (entry, g) :: rest, known⟩ =>
    let w : Walk α := ⟨members, rest, Walk.known_tail known⟩
    have hentry : members.Has entry := Walk.known_head known
    match _hmembers : g.members? with
    | some gs => layFlaws found (w.enter entry hentry gs.zipIdx.reverse)
    | none =>
      match g.leafFlaws with
      | [] => layFlaws found w
      | flaws =>
        let path := members.climb [] entry hentry
        layFlaws ((flaws.map (Flaw.below path)).reverseAux found) w
termination_by w => w.size
decreasing_by
  · rw [Walk.size_enter, List.map_reverse, List.zipIdx_map_fst, sizeSum_reverse]
    simp only [Walk.size, List.map_cons, sizeSum]
    have := sizeSum_lt_of_members? _hmembers
    omega
  · simp only [Walk.size, List.map_cons, sizeSum]
    have := size_pos g
    omega
  · simp only [Walk.size, List.map_cons, sizeSum]
    have := size_pos g
    omega

/-- The flaws of a geometry, in the order of the document. -/
def flaws (g : Geometry α) : List (Flaw α) := (layFlaws [] (.start g)).reverse

mutual

/-- The flaws by recursion: those of a collection are those of its members,
seen from the collection. -/
def flawList : Geometry α → List (Flaw α)
  | .collection members _ => flawLists 0 members
  | g => g.leafFlaws

/-- The flaws of the members of a collection, from member `n` on. -/
def flawLists (n : Nat) : List (Geometry α) → List (Flaw α)
  | [] => []
  | g :: rest =>
    (flawList g).map (Flaw.inside ⟨.collection, n⟩) ++ flawLists (n + 1) rest

end

end Geometry

/-! ## Texts -/

/-- What a defect is reported as. -/
def Defect.reason : Defect → String
  | .notFinite => "Coordinates must be finite"
  | .shortLine found =>
    "LineString must have at least 2 points, found " ++ toString found
  | .shortRing found =>
    "Linear ring must have at least 4 points, found " ++ toString found
  | .openRing => "Linear ring must be closed (first point == last point)"
  | .noOuterRing => "Polygon must have an exterior ring"

/-- Something by its number. -/
def numbered (name : String) (index : Nat) : String :=
  name ++ "[" ++ toString index ++ "]"

/-- The text of a place. -/
def Place.text : Place Float → String
  | .point p =>
    "Point(" ++ Layout.plain.text p.longitude ++ ", "
      ++ Layout.plain.text p.latitude ++ ")"
  | .whole kind => kind.name
  | .entry kind index => numbered kind.name index
  | .outerRing => "Polygon exterior"
  | .hole index => numbered "Polygon interior" index

/-- The text of a step, with the point that joins it to what follows. -/
def Step.text (s : Step) : String := numbered s.kind.name s.index ++ "."

/-- The text of the place of a flaw, with the steps that lead there. -/
def Flaw.location (f : Flaw Float) : String :=
  f.steps.foldr (fun step rest => step.text ++ rest) f.place.text

/-! ## Reports -/

/-- A flaw in words. -/
structure Issue where
  /-- Where it is. -/
  location : String
  /-- What is wrong. -/
  reason : String
deriving DecidableEq, Repr

/-- What a check found. -/
structure Report where
  /-- Nothing has been found. -/
  isValid : Bool
  /-- What has been found, in order. -/
  errors : List Issue
deriving DecidableEq, Repr

namespace Report

/-- The report that nothing has been found. -/
def valid : Report := ⟨true, []⟩

/-- The report of some issues. -/
def invalid (errors : List Issue) : Report := ⟨false, errors⟩

/-- The report with one more issue. -/
def add (r : Report) (issue : Issue) : Report := ⟨false, r.errors ++ [issue]⟩

end Report

/-- A flaw as an issue. -/
def Flaw.issue (f : Flaw Float) : Issue := ⟨f.location, f.defect.reason⟩

/-- The report on a geometry. -/
def Geometry.validate (g : Geometry Float) : Report :=
  match g.flaws with
  | [] => .valid
  | flaws => .invalid (flaws.map Flaw.issue)

/-- How many of some geometries have a flaw. -/
def countInvalid (geometries : List (Geometry Float)) : Nat :=
  geometries.countP fun g => !g.validate.isValid

end Graticule
