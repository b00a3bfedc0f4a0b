import Graticule.Point

/-!
# Simplification

A line is simplified by keeping its two ends and, between them, only the points
that matter. The section between two kept points is looked at as a whole: if
none of its inner points deviates from the straight segment by more than the
tolerance, they are all dropped; otherwise the one that deviates most is kept,
the first of several, and divides the section into two that are looked at in
the same way.

Sections are worked off from a list, first to last, so a line may be of any
length; `divide` says by recursion what is kept inside one. The search does not
depend on what is compared with what: a deviation is any function of a point
and the two ends of its section.

A coarser pass may come first. It walks along the line and drops every point
close to the last one kept, but never the last point of the line.

Distances are planar, in degrees, and everything is done on their squares.
-/

namespace Graticule

namespace Simplify

/-! ## Distances -/

section

variable {α : Type} [Scalar α]

/-- The square of the distance between two points. -/
def gap (p q : Point α) : α :=
  let dLon := q.longitude - p.longitude
  let dLat := q.latitude - p.latitude
  dLon * dLon + dLat * dLat

/-- The square of the distance from a point to the closest point of a
segment. -/
def deviation (p start stop : Point α) : α :=
  let dLat := stop.latitude - start.latitude
  let dLon := stop.longitude - start.longitude
  let (lat, lon) :=
    if dLat != 0 || dLon != 0 then
      let t := ((p.latitude - start.latitude) * dLat
          + (p.longitude - start.longitude) * dLon)
        / (dLat * dLat + dLon * dLon)
      if 1 < t then (stop.latitude, stop.longitude)
      else if 0 < t then (start.latitude + dLat * t, start.longitude + dLon * t)
      else (start.latitude, start.longitude)
    else (start.latitude, start.longitude)
  let dLat := p.latitude - lat
  let dLon := p.longitude - lon
  dLat * dLat + dLon * dLon

end

/-! ## Dividing a section -/

variable {α β : Type}

/-- A point of a section, with the points before and after it. -/
structure Cut (β : Type) where
  /-- The points before, in order. -/
  before : List β
  /-- The point itself. -/
  pivot : β
  /-- The points after, in order. -/
  after : List β

variable [LT α] [DecidableLT α]

/-- The first point with the largest measure above `most`, searched for in the
rest of a section; `best` is the answer so far. The points before it are held
with the last one first, like those passed. -/
def farthest (measure : β → α) (most : α) (best : Option (Cut β))
    (passed : List β) : (ahead : List β) → Option (Cut β)
  | [] => best
  | p :: rest =>
    let d := measure p
    if most < d then farthest measure d (some ⟨passed, p, rest⟩) (p :: passed) rest
    else farthest measure most best (p :: passed) rest

/-- The first point with the largest measure above a limit. -/
def cut? (measure : β → α) (limit : α) (points : List β) : Option (Cut β) :=
  (farthest measure limit none [] points).map fun c =>
    { c with before := c.before.reverse }

theorem farthest_eq_some (measure : β → α) (most : α) (best : Option (Cut β))
    (passed ahead : List β)
    (h : ∀ c, best = some c →
      c.before.reverse ++ c.pivot :: c.after = passed.reverse ++ ahead)
    {c : Cut β} (hc : farthest measure most best passed ahead = some c) :
    c.before.reverse ++ c.pivot :: c.after = passed.reverse ++ ahead := by
  induction ahead generalizing most best passed with
  | nil => exact h c hc
  | cons p rest ih =>
      simp only [farthest] at hc
      split at hc
      · have := ih _ _ _ (by intro c h; cases h; simp) hc
        simpa using this
      · have := ih _ _ _ (by intro c hb; have := h c hb; simpa using this) hc
        simpa using this

/-- A cut takes a section apart and loses nothing. -/
theorem append_of_cut?_eq_some {measure : β → α} {limit : α} {points : List β}
    {c : Cut β} (h : cut? measure limit points = some c) :
    c.before ++ c.pivot :: c.after = points := by
  simp only [cut?, Option.map_eq_some_iff] at h
  obtain ⟨d, hd, rfl⟩ := h
  have := farthest_eq_some measure limit none [] points (by simp) hd
  simpa using this

theorem length_of_cut?_eq_some {measure : β → α} {limit : α} {points : List β}
    {c : Cut β} (h : cut? measure limit points = some c) :
    c.before.length + c.after.length + 1 = points.length := by
  have := congrArg List.length (append_of_cut?_eq_some h)
  simp only [List.length_append, List.length_cons] at this
  omega

/-- The inner points kept in the section between two points, by recursion: none,
or the one that deviates most and those kept on its two sides. -/
def divide (deviation : β → β → β → α) (limit : α) (start : β)
    (inner : List β) (stop : β) : List β :=
  match _found : cut? (deviation · start stop) limit inner with
  | none => []
  | some c =>
    divide deviation limit start c.before c.pivot
      ++ c.pivot :: divide deviation limit c.pivot c.after stop
termination_by inner.length
decreasing_by
  · have := length_of_cut?_eq_some _found
    omega
  · have := length_of_cut?_eq_some _found
    omega

/-! ## Working off sections -/

/-- The points between a kept point and the next one, and that next one. It
starts where the section before it stops. -/
structure Section (β : Type) where
  /-- The inner points. -/
  inner : List β
  /-- The kept point at its end. -/
  stop : β

/-- How much work is left in some sections: a cut takes one inner point out and
adds one section. -/
def work : (sections : List (Section β)) → Nat
  | [] => 0
  | s :: rest => 2 * s.inner.length + 1 + work rest

/-- Works off sections that start at a kept point, laying what is kept onto
what has been kept before, the last one on top. -/
def workOff (deviation : β → β → β → α) (limit : α) (kept : List β) (start : β) :
    (sections : List (Section β)) → List β
  | [] => kept
  | s :: rest =>
    match _found : cut? (deviation · start s.stop) limit s.inner with
    | none => workOff deviation limit (s.stop :: kept) s.stop rest
    | some c =>
      workOff deviation limit kept start
        (⟨c.before, c.pivot⟩ :: ⟨c.after, s.stop⟩ :: rest)
termination_by sections => work sections
decreasing_by
  · simp only [work]
    omega
  · have := length_of_cut?_eq_some _found
    simp only [work]
    omega

/-- The ends of a line, and the points between them that matter. -/
def reduce (deviation : β → β → β → α) (limit : α) : List β → List β
  | first :: next :: rest =>
    let last := rest.getLastD next
    let inner := (next :: rest).dropLast
    (workOff deviation limit [first] first [⟨inner, last⟩]).reverse
  | points => points

/-! ## The coarser pass -/

/-- Drops the points close to the last one kept, up to the end of the line,
laying what is kept onto what has been kept before. The last point always
stays. -/
def passOver (gap : β → β → α) (limit : α) (kept : List β) (last : β) :
    (ahead : List β) → List β
  | [] => kept
  | [p] => p :: kept
  | p :: rest =>
    if limit < gap p last then passOver gap limit (p :: kept) p rest
    else passOver gap limit kept last rest

/-- The first and the last point of a line, and between them those that are not
close to the one kept before them. -/
def thin (gap : β → β → α) (limit : α) : List β → List β
  | [] => []
  | first :: rest => (passOver gap limit [first] first rest).reverse

end Simplify

/-- A line without the points that matter less than a tolerance. High quality
leaves the coarser pass out. -/
def simplify {α : Type} [Scalar α] (points : List (Point α)) (tolerance : α)
    (highQuality : Bool) : List (Point α) :=
  let limit := tolerance * tolerance
  let candidates :=
    if highQuality then points else Simplify.thin Simplify.gap limit points
  Simplify.reduce Simplify.deviation limit candidates

end Graticule
