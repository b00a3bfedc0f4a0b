import Graticule.Proofs.Distance
import Graticule.Proofs.Nesting

/-!
# Simplifying again changes nothing

A reduction finds in its own result the cuts it made, as it does under any higher
limit. What has to be shown is that the coarser pass leaves that result alone.

It compares a point with the last one it kept, and points between the two may have
been dropped since, so it is not enough that the points it kept were far apart. But
of two points that follow one another in the result, the later one to be kept was a
cut of a section that the earlier one bounds: nothing was kept between them. A point
that deviates from a section by more than the limit is farther than that from both
ends of it. Only the two ends of a line may be close, and the last point always
stays.
-/

namespace Graticule

namespace Simplify

/-! ## Neighbours are far apart -/

section

variable {α β : Type} [Scalar α] {deviation : β → β → β → α} {limit : α}

/-- Neighbours among the points kept in a section, with the ends of the section,
are related as a point is to the ends of a section that it deviates from. The ends
themselves may not be, if nothing is kept between them. -/
theorem divide_isChain [StrictlyOrdered α] {R : β → β → Prop}
    (hstart : ∀ p a b, limit < deviation p a b → R a p)
    (hstop : ∀ p a b, limit < deviation p a b → R p b) (start : β) (inner : List β) (stop : β)
    (hends : divide deviation limit start inner stop = [] → R start stop) :
    List.IsChain R (start :: (divide deviation limit start inner stop ++ [stop])) := by
  fun_induction divide deviation limit start inner stop with
  | case1 start inner stop =>
      exact List.isChain_pair.mpr (hends rfl)
  | case2 start inner stop c hsome ihbefore ihafter =>
      have habove := (cut?_eq_some_iff.mp hsome).above
      have hbefore := ihbefore fun _ => hstart c.pivot start stop habove
      have hafter := ihafter fun _ => hstop c.pivot start stop habove
      rw [List.append_assoc, List.cons_append, ← List.cons_append]
      exact List.isChain_split.mpr ⟨hbefore, hafter⟩

theorem spread_of_isChain {gap : β → β → α} {previous : β} {inner : List β}
    (h : List.IsChain (fun a b => limit < gap b a) (previous :: inner)) :
    spread gap limit previous inner = inner := by
  induction inner generalizing previous with
  | nil => rfl
  | cons p rest ih =>
      obtain ⟨hgap, hrest⟩ := List.isChain_cons_cons.mp h
      rw [spread, if_pos hgap, ih hrest]

end

/-! ## The coarser pass over a reduced line -/

section

variable {α β : Type} [Scalar α] [StrictlyOrdered α] {gap : β → β → α}
  {deviation : β → β → β → α} {limit : α}
  (hstart : ∀ p a b, limit < deviation p a b → limit < gap p a)
  (hstop : ∀ p a b, limit < deviation p a b → limit < gap b p)

include hstart hstop

theorem spread_divide (start : β) (inner : List β) (stop : β) :
    spread gap limit start (divide deviation limit start inner stop)
      = divide deviation limit start inner stop := by
  by_cases hnone : divide deviation limit start inner stop = []
  · rw [hnone]
    rfl
  · have hchain := divide_isChain (R := fun a b => limit < gap b a) hstart hstop
      start inner stop fun h => absurd h hnone
    rw [← List.cons_append] at hchain
    exact spread_of_isChain hchain.left_of_append

theorem thin_passes (highQuality : Bool) (points : List β) :
    thin gap limit (passes gap deviation limit highQuality points)
      = passes gap deviation limit highQuality points := by
  by_cases h : points.length < 2
  · rw [passes_of_length_lt gap deviation limit highQuality h]
    match points, h with
    | [], _ => rfl
    | [p], _ => rfl
  · obtain ⟨first, inner, last, rfl⟩ := exists_ends (Nat.le_of_not_lt h)
    rw [passes_ends, thin_ends, inside, spread_divide hstart hstop]

/-- Both passes leave a line as it is that they have passed over. -/
theorem passes_passes (hnumber : limit ≤ limit) (highQuality : Bool) (points : List β) :
    passes gap deviation limit highQuality (passes gap deviation limit highQuality points)
      = passes gap deviation limit highQuality points := by
  cases highQuality with
  | true => exact passes_passes_of_le gap deviation hnumber points
  | false =>
      have hthin := thin_passes hstart hstop false points
      have hreduce := passes_passes_of_le gap deviation hnumber (thin gap limit points)
      calc passes gap deviation limit false (passes gap deviation limit false points)
          = reduce deviation limit (passes gap deviation limit false points) :=
            congrArg (reduce deviation limit) hthin
        _ = passes gap deviation limit false points := hreduce

end

end Simplify

open Simplify

/-- A simplified line is left as it is by simplifying it again, and by the coarser
pass alone. -/
theorem simplify_simplify (points : List (Point Rat)) (tolerance : Rat) (highQuality : Bool) :
    simplify (simplify points tolerance highQuality) tolerance highQuality
        = simplify points tolerance highQuality
      ∧ thin gap (tolerance * tolerance) (simplify points tolerance highQuality)
        = simplify points tolerance highQuality := by
  have hstart (p a b : Point Rat) (h : tolerance * tolerance < deviation p a b) :
      tolerance * tolerance < gap p a := h.trans_le (deviation_le_gap_start p a b)
  have hstop (p a b : Point Rat) (h : tolerance * tolerance < deviation p a b) :
      tolerance * tolerance < gap b p := by
    rw [gap_comm]
    exact h.trans_le (deviation_le_gap_stop p a b)
  exact ⟨passes_passes hstart hstop le_rfl highQuality points,
    thin_passes hstart hstop highQuality points⟩

end Graticule
