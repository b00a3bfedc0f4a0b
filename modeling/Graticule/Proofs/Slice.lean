import Graticule.Path.Slice
import Graticule.Proofs.Ordered

/-!
# A slice ends where its distances fall

Two walks find a distance along a path: `along` looks for one point, and a slice
for two and the vertices between them. They are organised differently, `along`
answering where it stops and a slice deciding at every vertex what to take, but
they go from vertex to vertex with the same distance travelled, and both act at
the first vertex at or past a distance.

So the proof follows the path. Up to the vertex that reaches the start, the slice
has nothing and the walk for the start goes on; from then on it has something,
and only the walk for the stop is left. Where the two could differ is at the last
vertex, since there `along` stops whatever the distance is. It takes a finite
length of the path for them to agree even there.
-/

namespace Graticule

open OrderedScalar

section

variable {α : Type} [Trig α] {start stop target travelled : α} {unit : LengthUnit}
  {previous : Option (Point α)} {here next : Point α} {rest taken : List (Point α)}

/-! ## Steps of a walk -/

theorem exists_arrive (target travelled : α) (unit : LengthUnit) (previous here : Point α) :
    ∃ q, arrive target unit travelled (some previous) here = .ok q := by
  unfold arrive
  split
  · exact ⟨_, rfl⟩
  · exact ⟨_, rfl⟩

theorem walkTo_cons (h : ¬ target ≤ travelled) :
    walkTo target unit travelled previous (here :: next :: rest)
      = walkTo target unit (travelled + distance here next unit) (some here)
          (next :: rest) :=
  if_neg h

theorem walkTo_of_le (h : target ≤ travelled) :
    walkTo target unit travelled previous (here :: next :: rest)
      = arrive target unit travelled previous here :=
  if_pos h

/-! ## Steps of a slice -/

/-- A slice that has passed its start takes the point there, and goes on as one
that has something. -/
theorem cut_begin {v : Point α} (lengths : List α) (h : start < travelled) :
    cut start stop unit [] travelled (some v) (here :: rest) lengths
      = cut start stop unit [offsetFrom v here (start - travelled) unit] travelled (some v)
          (here :: rest) lengths := by
  have hbegun : ¬ (start < travelled
      ∧ [offsetFrom v here (start - travelled) unit].isEmpty = true) := by simp
  rw [cut, cut, if_pos ⟨h, rfl⟩, if_neg hbegun]
  rfl

theorem cut_arrive {q : Point α} {lengths : List α}
    (hbegun : ¬ (start < travelled ∧ taken.isEmpty = true)) (h : stop ≤ travelled)
    (hq : arrive stop unit travelled previous here = .ok q) :
    cut start stop unit taken travelled previous (here :: rest) lengths
      = .ok (taken.reverse ++ [q]) := by
  rw [cut, if_neg hbegun, ← List.reverse_cons]
  simp only [pure_bind, if_pos h, hq]
  rfl

theorem cut_last {lengths : List α} (hbegun : ¬ (start < travelled ∧ taken.isEmpty = true))
    (h : ¬ stop ≤ travelled) (hstart : start ≤ travelled) :
    cut start stop unit taken travelled previous [here] lengths
      = .ok (taken.reverse ++ [here]) := by
  rw [cut, if_neg hbegun, ← List.reverse_cons]
  simp only [pure_bind, if_neg h, if_pos hstart]
  rfl

theorem cut_cons {d : α} {lengths : List α}
    (hbegun : ¬ (start < travelled ∧ taken.isEmpty = true)) (h : ¬ stop ≤ travelled) :
    cut start stop unit taken travelled previous (here :: next :: rest) (d :: lengths)
      = cut start stop unit (if start ≤ travelled then here :: taken else taken)
          (travelled + d) (some here) (next :: rest) lengths := by
  rw [cut, if_neg hbegun]
  simp only [pure_bind, if_neg h]

/-! ## The whole path -/

/-- The distance travelled when a walk has come to the last vertex. -/
def travelledTo (unit : LengthUnit) (travelled : α) (path : List (Point α)) : α :=
  (legLengths path unit).foldl (· + ·) travelled

theorem legLengths_length (points : List (Point α)) (unit : LengthUnit) :
    (legLengths points unit).length = points.length - 1 := by
  rw [legLengths, List.length_map, legs, List.length_zip, List.length_tail]
  omega

theorem legLengths_cons : legLengths (here :: next :: rest) unit
    = distance here next unit :: legLengths (next :: rest) unit := rfl

theorem travelledTo_cons : travelledTo unit travelled (here :: next :: rest)
    = travelledTo unit (travelled + distance here next unit) (next :: rest) := rfl

end

variable {α : Type} [Trig α] [OrderedScalar α] {start stop target travelled : α}
  {unit : LengthUnit} {previous : Option (Point α)} {here : Point α}

theorem arrive_of_le_of_le (h : target ≤ travelled) (h' : travelled ≤ target)
    (hfinite : Scalar.isFinite target = true) :
    arrive target unit travelled previous here = .ok here :=
  if_pos (sub_beq_zero_iff.mpr ⟨h, h', hfinite⟩)

theorem arrive_of_lt (h : target < travelled) :
    arrive target unit travelled previous here
      = offsetFrom? previous here (target - travelled) unit := by
  rw [arrive, sub_ne_zero_of_lt h]
  rfl

/-- At the last vertex as before it, a walk that has passed its target arrives
short of the vertex. -/
theorem walkTo_of_lt (rest : List (Point α)) (h : target < travelled) :
    walkTo target unit travelled previous (here :: rest)
      = arrive target unit travelled previous here := by
  cases rest with
  | nil =>
      show (if travelled ≤ target then _ else if target ≤ travelled then _ else _) = _
      rw [if_neg (not_le_of_lt h), if_pos (le_of_lt h)]
  | cons next rest => exact walkTo_of_le (le_of_lt h)

/-- A slice that has something ends where the walk for its stop arrives. -/
theorem cut_begun {v : Point α} {taken : List (Point α)} (rest : List (Point α))
    (htaken : taken ≠ []) (hstop : stop ≤ stop)
    (hlt : start < travelledTo unit travelled (here :: rest))
    (hend : Scalar.isFinite (travelledTo unit travelled (here :: rest)) = true) :
    ∃ q inner, walkTo stop unit travelled (some v) (here :: rest) = .ok q
      ∧ cut start stop unit taken travelled (some v) (here :: rest)
          (legLengths (here :: rest) unit) = .ok (taken.reverse ++ inner ++ [q]) := by
  induction rest generalizing here travelled v taken with
  | nil =>
      have hbegun : ¬ (start < travelled ∧ taken.isEmpty = true) := by simp [htaken]
      have hlast : start < travelled := hlt
      by_cases hle : stop ≤ travelled
      · by_cases hge : travelled ≤ stop
        · -- The stop is the last vertex itself.
          have hfinite : Scalar.isFinite stop = true := isFinite_of_le hend hge hle hend
          refine ⟨here, [], if_pos hge, ?_⟩
          rw [List.append_nil]
          exact cut_arrive hbegun hle (arrive_of_le_of_le hle hge hfinite)
        · have hstopLt : stop < travelled := lt_iff.mpr ⟨hle, hge⟩
          obtain ⟨q, hq⟩ := exists_arrive stop travelled unit v here
          refine ⟨q, [], (walkTo_of_lt [] hstopLt).trans hq, ?_⟩
          rw [List.append_nil]
          exact cut_arrive hbegun hle hq
      · have hge := le_of_not_le hstop (le_refl_right (le_of_lt hlast)) hle
        refine ⟨here, [], if_pos hge, ?_⟩
        rw [List.append_nil]
        exact cut_last hbegun hle (le_of_lt hlast)
  | cons next rest ih =>
      have hbegun : ¬ (start < travelled ∧ taken.isEmpty = true) := by simp [htaken]
      by_cases hle : stop ≤ travelled
      · obtain ⟨q, hq⟩ := exists_arrive stop travelled unit v here
        refine ⟨q, [], (walkTo_of_le hle).trans hq, ?_⟩
        rw [List.append_nil]
        exact cut_arrive hbegun hle hq
      · have hnext : (if start ≤ travelled then here :: taken else taken) ≠ [] := by
          split
          · exact List.cons_ne_nil _ _
          · exact htaken
        rw [travelledTo_cons] at hlt hend
        obtain ⟨q, inner, hq, hcut⟩ := ih (v := here) hnext hlt hend
        rw [walkTo_cons hle, legLengths_cons, cut_cons hbegun hle, hcut]
        by_cases hstart : start ≤ travelled
        · refine ⟨q, here :: inner, hq, ?_⟩
          rw [if_pos hstart]
          simp
        · refine ⟨q, inner, hq, ?_⟩
          rw [if_neg hstart]

/-- A slice that has nothing yet starts where the walk for its start arrives, and
ends where the walk for its stop does. -/
theorem cut_unbegun (rest : List (Point α)) (hprevious : previous = none → travelled ≤ start)
    (hfinite : Scalar.isFinite start = true) (hstop : start < stop)
    (hlt : start < travelledTo unit travelled (here :: rest))
    (hend : Scalar.isFinite (travelledTo unit travelled (here :: rest)) = true) :
    ∃ p q inner, walkTo start unit travelled previous (here :: rest) = .ok p
      ∧ walkTo stop unit travelled previous (here :: rest) = .ok q
      ∧ cut start stop unit [] travelled previous (here :: rest)
          (legLengths (here :: rest) unit) = .ok (p :: (inner ++ [q])) := by
  have hstopSelf := le_refl_right (le_of_lt hstop)
  induction rest generalizing here travelled previous with
  | nil =>
      -- The last vertex is past the start, so the point before it is taken here.
      have hlast : start < travelled := hlt
      cases previous with
      | none => exact absurd (hprevious rfl) (not_le_of_lt hlast)
      | some v =>
          obtain ⟨q, inner, hq, hcut⟩ := cut_begun []
            (List.cons_ne_nil (offsetFrom v here (start - travelled) unit) []) hstopSelf hlt hend
          refine ⟨_, q, inner, (walkTo_of_lt [] hlast).trans (arrive_of_lt hlast), hq, ?_⟩
          rw [cut_begin _ hlast, hcut]
          rfl
  | cons next rest ih =>
      by_cases hpast : start < travelled
      · cases previous with
        | none => exact absurd (hprevious rfl) (not_le_of_lt hpast)
        | some v =>
            obtain ⟨q, inner, hq, hcut⟩ := cut_begun (next :: rest)
              (List.cons_ne_nil (offsetFrom v here (start - travelled) unit) [])
              hstopSelf hlt hend
            refine ⟨_, q, inner, (walkTo_of_lt _ hpast).trans (arrive_of_lt hpast), hq, ?_⟩
            rw [cut_begin _ hpast, hcut]
            rfl
      · have hbegun : ¬ (start < travelled ∧ ([] : List (Point α)).isEmpty = true) :=
          fun h => hpast h.1
        have hstopAhead : ¬ stop ≤ travelled := fun h => hpast (lt_of_lt_of_le hstop h)
        rw [travelledTo_cons] at hlt hend
        rw [walkTo_cons hstopAhead, legLengths_cons, cut_cons hbegun hstopAhead]
        by_cases hstart : start ≤ travelled
        · -- The start is this vertex.
          have hge := ge_of_le_of_not_lt hstart hpast
          obtain ⟨q, inner, hq, hcut⟩ :=
            cut_begun rest (List.cons_ne_nil here []) hstopSelf hlt hend
          refine ⟨here, q, inner, ?_, hq, ?_⟩
          · rw [walkTo_of_le hstart]
            exact arrive_of_le_of_le hstart hge hfinite
          · rw [if_pos hstart, hcut]
            rfl
        · rw [walkTo_cons hstart, if_neg hstart]
          exact ih (fun h => by cases h) hlt hend

/-! ## Slices -/

omit [OrderedScalar α] in
theorem sliceWith_eq (points : List (Point α)) (start stop : α) (segments : SegmentLengths α) :
    sliceWith points start stop segments
      = if points.length < 2 then
          .error (.tooFewCoordinates "lineSliceAlong" 2 points.length)
        else if segments.lengths.length ≠ points.length - 1 then
          .error (.distanceCount (points.length - 1) segments.lengths.length)
        else if start == stop then .error .sliceDistancesEqual
        else if start < 0 then .error (.negativeDistance start)
        else if stop < 0 then .error (.negativeDistance stop)
        else if stop < start then .error (.sliceDistancesReversed start stop)
        else if segments.total ≤ start then .error (.startBeyondLine start segments.total)
        else (fun taken => ⟨taken, none⟩)
          <$> cut start stop segments.unit [] 0 none points segments.lengths :=
  rfl

/-- From zero on, `along` is the walk from the first vertex. -/
theorem along_eq_walkTo {points : List (Point α)} (h : points ≠ []) (hzero : 0 ≤ target) :
    along points target unit = walkTo target unit 0 none points := by
  cases points with
  | nil => exact absurd rfl h
  | cons first rest =>
      by_cases hle : target ≤ 0
      · have hfinite : Scalar.isFinite target = true :=
          isFinite_of_le isFinite_zero hzero hle isFinite_zero
        rw [along, if_pos hle]
        cases rest with
        | nil => exact (if_pos hzero).symm
        | cons next rest =>
            rw [walkTo_of_le hle]
            exact (arrive_of_le_of_le hle hzero hfinite).symm
      · exact if_neg hle

/-- Distances that can be cut at are cut at. -/
theorem sliceWith_eq_cut {points taken : List (Point α)} {segments : SegmentLengths α}
    (hlength : 2 ≤ points.length) (hcount : segments.lengths.length = points.length - 1)
    (hstart : 0 ≤ start) (hstop : start < stop) (htotal : ¬ segments.total ≤ start)
    (h : cut start stop segments.unit [] 0 none points segments.lengths = .ok taken) :
    sliceWith points start stop segments = .ok ⟨taken, none⟩ := by
  have hpoints : ¬ points.length < 2 := by omega
  have hequal : ¬ (start == stop) = true := fun heq => not_le_of_lt hstop (beq_iff.mp heq).2
  have hstartZero : ¬ start < 0 := not_lt_of_le hstart
  have hstopZero : ¬ stop < 0 := not_lt_of_le (le_trans hstart (le_of_lt hstop))
  have hreversed : ¬ stop < start := not_lt_of_le (le_of_lt hstop)
  rw [sliceWith_eq, if_neg hpoints, if_neg (not_not_intro hcount), if_neg hequal,
    if_neg hstartZero, if_neg hstopZero, if_neg hreversed, if_neg htotal, h]
  rfl

theorem slice_eq_cut {points taken : List (Point α)} (hlength : 2 ≤ points.length)
    (hstart : 0 ≤ start) (hstop : start < stop) (htotal : start < pathLength points unit)
    (h : cut start stop unit [] 0 none points (legLengths points unit) = .ok taken) :
    slice points start stop unit = .ok ⟨taken, none⟩ :=
  sliceWith_eq_cut hlength (legLengths_length points unit) hstart hstop (not_le_of_lt htotal) h

/-- The ends of a slice are the points at its two distances, when the path has a
finite length. -/
theorem slice_eq_along {points : List (Point α)} (hlength : 2 ≤ points.length)
    (hlegs : ∀ d ∈ legLengths points unit, Scalar.isFinite d = true)
    (hend : Scalar.isFinite (pathLength points unit) = true) (hstart : 0 ≤ start)
    (hstop : start < stop) (htotal : start < pathLength points unit) :
    ∃ p q inner, along points start unit = .ok p ∧ along points stop unit = .ok q
      ∧ slice points start stop unit = .ok ⟨p :: (inner ++ [q]), none⟩ := by
  have hne : points ≠ [] := by
    intro hnil
    rw [hnil, List.length_nil] at hlength
    omega
  have hle : pathLength points unit ≤ travelledTo unit 0 points := total_le_foldl hlegs
  have hge : travelledTo unit 0 points ≤ pathLength points unit := foldl_le_total hlegs
  have hfinite := isFinite_of_lt isFinite_zero hstart htotal
  obtain ⟨first, rest, rfl⟩ := List.exists_cons_of_ne_nil hne
  obtain ⟨p, q, inner, hp, hq, hcut⟩ := cut_unbegun rest (fun _ => hstart) hfinite hstop
    (lt_of_lt_of_le htotal hle) (isFinite_of_le hend hle hge hend)
  rw [← along_eq_walkTo hne hstart] at hp
  rw [← along_eq_walkTo hne (le_trans hstart (le_of_lt hstop))] at hq
  exact ⟨p, q, inner, hp, hq, slice_eq_cut hlength hstart hstop htotal hcut⟩

end Graticule
