import Graticule.Geometry
import Graticule.Path

/-!
# Slices by distance

The part of a path between two distances from its start. Its ends are where
the two distances fall, found as `along` finds them, and between them are the
vertices passed on the way.

The lengths of the segments are an argument: they may have been measured once
for many slices, or elsewhere, and then they are taken as they are.
-/

namespace Graticule

variable {α : Type}

/-- The lengths of the segments of a path, in a unit. -/
structure SegmentLengths (α : Type) where
  /-- One length for each segment, in order. -/
  lengths : List α
  /-- The unit they are in. -/
  unit : LengthUnit

namespace SegmentLengths

/-- The lengths measured on a path. -/
def ofPath [Trig α] (points : List (Point α)) (unit : LengthUnit) :
    SegmentLengths α :=
  ⟨legLengths points unit, unit⟩

/-- The length of the whole path. -/
def total [Scalar α] (s : SegmentLengths α) : α := Scalar.total s.lengths

/-- How far the start of segment `n` is from the start of the path. -/
def upTo [Scalar α] (s : SegmentLengths α) (n : Nat) : α :=
  (s.lengths.take n).foldl (· + ·) 0

end SegmentLengths

variable [Trig α]

/-- Cuts the path from a vertex on that has been reached after `travelled`.
What has been cut so far is held with its last point first. -/
def cut (start stop : α) (unit : LengthUnit) (taken : List (Point α))
    (travelled : α) (previous : Option (Point α)) :
    (ahead : List (Point α)) → (lengths : List α) →
      Except (Error α) (List (Point α))
  | [], _ => .ok taken.reverse
  | here :: rest, lengths => do
    let taken ←
      if start < travelled ∧ taken.isEmpty then
        (fun p => [p]) <$> offsetFrom? previous here (start - travelled) unit
      else pure taken
    if stop ≤ travelled then
      return ((← arrive stop unit travelled previous here) :: taken).reverse
    else
      let taken := if start ≤ travelled then here :: taken else taken
      match rest, lengths with
      | [], _ => return taken.reverse
      | _ :: _, d :: lengths =>
        cut start stop unit taken (travelled + d) (some here) rest lengths
      | _ :: _, [] => .error .noSuchVertex

/-- The part of a path between two distances, with the lengths of its segments
at hand. The stop may lie beyond the path, the start may not. -/
def sliceWith (points : List (Point α)) (start stop : α)
    (segments : SegmentLengths α) : Except (Error α) (LineString α) := do
  let n := points.length
  if n < 2 then
    throw (.tooFewCoordinates "lineSliceAlong" 2 n)
  if segments.lengths.length ≠ n - 1 then
    throw (.distanceCount (n - 1) segments.lengths.length)
  if start == stop then
    throw .sliceDistancesEqual
  if start < 0 then
    throw (.negativeDistance start)
  if stop < 0 then
    throw (.negativeDistance stop)
  if stop < start then
    throw (.sliceDistancesReversed start stop)
  let length := segments.total
  if length ≤ start then
    throw (.startBeyondLine start length)
  return ⟨← cut start stop segments.unit [] 0 none points segments.lengths, none⟩

/-- The part of a path between two distances in a unit. -/
def slice (points : List (Point α)) (start stop : α) (unit : LengthUnit) :
    Except (Error α) (LineString α) :=
  sliceWith points start stop (.ofPath points unit)

end Graticule
