import Graticule.Proofs.Binary64.Ordered
import Graticule.Proofs.Cut
import Mathlib.Data.List.FinRange

/-!
# Division in any order

`Divided` says by recursion what a simplified section keeps, with nothing left of how it
is found. The running search works its sections off from left to right and comes to the
same.

So does any other order. A `Search` has marked some points and still has stretches to look
at, and `Step` looks at one of them, whichever: it drops the stretch, or marks a point in
it and leaves what is on its two sides. A step keeps the points that are marked by the end
the same, `Search.outcome`, and takes at least one point out of the pending stretches. So a
run has no more steps than the line has inner points, and once nothing is pending the marks
are the points kept, in whatever order they were made. Read off along the line they are the
simplified line.

The order of the deviations is all that matters, and of those that are not numbers nothing
is asked. A limit that is not a number is above nothing, and a line is reduced to its ends.
-/

namespace Graticule

namespace Simplify

section

variable {α β : Type} [Scalar α]

/-- What is kept of the inner points of a section. If none of them is above the limit they
are all dropped. Otherwise the first of those with the largest deviation is kept, and the
points on its two sides are divided in the same way. -/
inductive Divided (deviation : β → β → β → α) (limit : α) :
    β → List β → β → List β → Prop where
  | flat {start stop : β} {inner : List β}
      (hflat : ∀ p ∈ inner, ¬ limit < deviation p start stop) :
      Divided deviation limit start inner stop []
  | bent {start stop : β} {inner before after : List β} {c : Cut β}
      (hfirst : c.IsFirst (deviation · start stop) limit inner)
      (hbefore : Divided deviation limit start c.before c.pivot before)
      (hafter : Divided deviation limit c.pivot c.after stop after) :
      Divided deviation limit start inner stop (before ++ c.pivot :: after)

theorem divided_iff [StrictlyOrdered α] {deviation : β → β → β → α} {limit : α}
    {start stop : β} {inner kept : List β} :
    Divided deviation limit start inner stop kept
      ↔ kept = divide deviation limit start inner stop := by
  constructor
  · intro h
    induction h with
    | flat hflat => exact (divide_of_none (cut?_eq_none_iff.mpr hflat)).symm
    | bent hfirst _ _ ihbefore ihafter =>
        rw [divide_of_some (cut?_eq_some_iff.mpr hfirst), ihbefore, ihafter]
  · rintro rfl
    fun_induction divide deviation limit start inner stop with
    | case1 start inner stop hnone => exact .flat (cut?_eq_none_iff.mp hnone)
    | case2 start inner stop c hsome ihbefore ihafter =>
        exact .bent (cut?_eq_some_iff.mp hsome) ihbefore ihafter

/-! ## Stretches in any order -/

/-- Two marked points with the points between them, of which there are some. -/
structure Stretch (β : Type) where
  start : β
  inner : List β
  stop : β
  nonempty : inner ≠ []

/-- The stretch between two marked points, if there is something between them. -/
def Stretch.between (start : β) (inner : List β) (stop : β) : List (Stretch β) :=
  if h : inner = [] then [] else [⟨start, inner, stop, h⟩]

/-- The points marked so far, in the order in which they were found, and the stretches still
to be looked at. -/
structure Search (β : Type) where
  marked : List β
  pending : List (Stretch β)

namespace Search

/-- The ends of a line are marked before anything is looked at. -/
def start (first : β) (inner : List β) (last : β) : Search β :=
  ⟨[first, last], Stretch.between first inner last⟩

/-- How many points the pending stretches have inside. -/
def left (s : Search β) : Nat := (s.pending.map fun t => t.inner.length).sum

variable {deviation : β → β → β → α} {limit : α}

/-- One pending stretch is looked at, wherever it stands among the others. It is dropped if
none of its points is above the limit, and otherwise the first of those with the largest
deviation is marked. -/
inductive Step (deviation : β → β → β → α) (limit : α) : Search β → Search β → Prop where
  | drop {marked : List β} (earlier : List (Stretch β)) (t : Stretch β)
      (later : List (Stretch β)) (hflat : ∀ p ∈ t.inner, ¬ limit < deviation p t.start t.stop) :
      Step deviation limit ⟨marked, earlier ++ t :: later⟩ ⟨marked, earlier ++ later⟩
  | mark {marked : List β} (earlier : List (Stretch β)) (t : Stretch β)
      (later : List (Stretch β)) {c : Cut β}
      (hfirst : c.IsFirst (deviation · t.start t.stop) limit t.inner) :
      Step deviation limit ⟨marked, earlier ++ t :: later⟩
        ⟨c.pivot :: marked, Stretch.between t.start c.before c.pivot
          ++ Stretch.between c.pivot c.after t.stop ++ (earlier ++ later)⟩

/-- A number of steps, one after the other. -/
inductive Run (deviation : β → β → β → α) (limit : α) : Nat → Search β → Search β → Prop where
  | refl (s : Search β) : Run deviation limit 0 s s
  | tail {n : Nat} {s t u : Search β} (hrun : Run deviation limit n s t)
      (hstep : Step deviation limit t u) : Run deviation limit (n + 1) s u

/-! ## A run ends -/

theorem sum_between (start : β) (inner : List β) (stop : β) :
    ((Stretch.between start inner stop).map fun t => t.inner.length).sum = inner.length := by
  rw [Stretch.between]
  split
  · next hnil => rw [hnil]; rfl
  · simp

theorem left_start (first : β) (inner : List β) (last : β) :
    (start first inner last).left = inner.length := sum_between first inner last

/-- A step takes a point out of the pending stretches, or more than one. -/
theorem Step.left_lt {s t : Search β} (h : Step deviation limit s t) : t.left < s.left := by
  cases h with
  | drop earlier t later hflat =>
      have hpos := List.length_pos_iff.mpr t.nonempty
      simp only [left, List.map_append, List.map_cons, List.sum_append, List.sum_cons]
      omega
  | @mark _ earlier t later c hfirst =>
      -- the marked point itself is in neither of the two stretches that are left
      have hlength := congrArg List.length hfirst.append
      simp only [List.length_append, List.length_cons] at hlength
      simp only [left, List.map_append, List.map_cons, List.sum_append, List.sum_cons, sum_between]
      omega

theorem Run.add_left_le {n : Nat} {s t : Search β} (h : Run deviation limit n s t) :
    n + t.left ≤ s.left := by
  induction h with
  | refl => exact (Nat.zero_add _).le
  | tail _ hstep ih =>
      have := hstep.left_lt
      omega

/-! ## Where a run ends -/

/-- What is marked in a stretch in the end. -/
def stretchOutcome (deviation : β → β → β → α) (limit : α) (t : Stretch β) : List β :=
  divide deviation limit t.start t.inner t.stop

/-- What will be marked when nothing is pending any more. -/
def outcome (deviation : β → β → β → α) (limit : α) (s : Search β) : List β :=
  s.marked ++ s.pending.flatMap (stretchOutcome deviation limit)

theorem flatMap_between (start : β) (inner : List β) (stop : β) :
    (Stretch.between start inner stop).flatMap (stretchOutcome deviation limit)
      = divide deviation limit start inner stop := by
  rw [Stretch.between]
  split
  · next hnil =>
      rw [hnil, divide_of_none (cut?_eq_none_iff.mpr (by simp))]
      rfl
  · exact List.flatMap_singleton ..

theorem outcome_start (first : β) (inner : List β) (last : β) :
    ((start first inner last).outcome deviation limit).Perm
      (first :: (divide deviation limit first inner last ++ [last])) := by
  rw [start, outcome, flatMap_between]
  exact (List.perm_append_singleton last _).symm.cons first

variable [StrictlyOrdered α]

/-- A step changes the order of what will be marked, and nothing else. -/
theorem Step.outcome_perm {s t : Search β} (h : Step deviation limit s t) :
    (t.outcome deviation limit).Perm (s.outcome deviation limit) := by
  cases h with
  | drop earlier t later hflat =>
      have hnone : stretchOutcome deviation limit t = [] :=
        divide_of_none (cut?_eq_none_iff.mpr hflat)
      rw [outcome, outcome, List.flatMap_append, List.flatMap_append, List.flatMap_cons, hnone,
        List.nil_append]
  | @mark marked earlier t later c hfirst =>
      -- the stretch may stand anywhere, so it is brought to the front before it is opened
      let before := divide deviation limit t.start c.before c.pivot
      let after := divide deviation limit c.pivot c.after t.stop
      let others := (earlier ++ later).flatMap (stretchOutcome deviation limit)
      have hsome : stretchOutcome deviation limit t = before ++ c.pivot :: after :=
        divide_of_some (cut?_eq_some_iff.mpr hfirst)
      have hpick : ((earlier ++ t :: later).flatMap (stretchOutcome deviation limit)).Perm
          (before ++ c.pivot :: after ++ others) := by
        rw [← hsome, ← List.flatMap_cons]
        exact List.perm_middle.flatMap_right _
      rw [outcome, outcome, List.flatMap_append, List.flatMap_append, flatMap_between,
        flatMap_between]
      calc
        List.Perm (c.pivot :: (marked ++ (before ++ after ++ others)))
            (marked ++ c.pivot :: (before ++ after ++ others)) := List.perm_middle.symm
        List.Perm _ (marked ++ (before ++ c.pivot :: after ++ others)) :=
          (List.perm_middle.symm.append_right others).append_left marked
        List.Perm _ _ := hpick.symm.append_left marked

theorem Run.outcome_perm {n : Nat} {s t : Search β} (h : Run deviation limit n s t) :
    (t.outcome deviation limit).Perm (s.outcome deviation limit) := by
  induction h with
  | refl => exact .refl _
  | tail _ hstep ih => exact hstep.outcome_perm.trans ih

/-- A search goes on while something is pending. -/
theorem exists_step {s : Search β} (h : s.pending ≠ []) : ∃ t, Step deviation limit s t := by
  -- the first pending stretch will do
  obtain ⟨marked, pending⟩ := s
  obtain ⟨t, later, rfl⟩ := List.exists_cons_of_ne_nil h
  cases hcut : cut? (deviation · t.start t.stop) limit t.inner with
  | none => exact ⟨_, .drop [] t later (cut?_eq_none_iff.mp hcut)⟩
  | some c => exact ⟨_, .mark [] t later (cut?_eq_some_iff.mp hcut)⟩

/-- Whatever the order, a run that has nothing left to look at has marked the ends and what
the recursion keeps. -/
theorem Run.marked_perm {n : Nat} {first last : β} {inner : List β} {s : Search β}
    (h : Run deviation limit n (start first inner last) s) (hdone : s.pending = []) :
    s.marked.Perm (first :: (divide deviation limit first inner last ++ [last])) := by
  have hmarked : s.outcome deviation limit = s.marked := by
    rw [outcome, hdone, List.flatMap_nil, List.append_nil]
  rw [← hmarked]
  exact h.outcome_perm.trans (outcome_start first inner last)

end Search

end

/-! ## The positions of a line -/

section

variable {α : Type} [Scalar α] (points : List (Point α))

/-- The gap between the points at two positions. -/
def gapAt (p q : Fin points.length) : α := gap points[p] points[q]

/-- The deviation of the point at a position from the segment between two others. -/
def deviationAt (p a b : Fin points.length) : α := deviation points[p] points[a] points[b]

/-- The positions that are divided: all of them, or those the coarser pass keeps. -/
def candidates (limit : α) (highQuality : Bool) : List (Fin points.length) :=
  if highQuality then List.finRange points.length
  else thin (gapAt points) limit (List.finRange points.length)

variable {points}

/-- Positions in order are read off a line by looking for each of its positions. -/
theorem filter_mem_finRange {n : Nat} {kept marked : List (Fin n)}
    (hkept : kept.Pairwise (· < ·)) (hmarked : marked.Perm kept) :
    (List.finRange n).filter (· ∈ marked) = kept := by
  have hnodup : kept.Nodup := hkept.imp ne_of_lt
  have hfilter : ((List.finRange n).filter (· ∈ marked)).Pairwise (· < ·) :=
    (List.pairwise_lt_finRange n).filter _
  refine List.Perm.eq_of_pairwise (fun a b _ _ hab hba => (lt_asymm hab hba).elim) hfilter hkept ?_
  rw [List.perm_ext_iff_of_nodup (hfilter.imp ne_of_lt) hnodup]
  simp [hmarked.mem_iff]

theorem exists_ends_finRange {n : Nat} (h : 2 ≤ n) :
    ∃ first inner last, List.finRange n = first :: (inner ++ [last])
      ∧ first.val = 0 ∧ last.val + 1 = n := by
  have hpositions : 2 ≤ (List.finRange n).length := by simpa using h
  obtain ⟨first, inner, last, hline⟩ := exists_ends hpositions
  have hlength : n = inner.length + 2 := by simpa using congrArg List.length hline
  -- the ends stand at the least index and at the greatest
  have hfirst := List.getElem_of_eq hline (i := 0) (by simp; omega)
  have hlast := List.getElem_of_eq hline (i := inner.length + 1) (by simp; omega)
  simp only [List.getElem_finRange, List.getElem_cons_zero] at hfirst
  simp only [List.getElem_finRange, List.getElem_cons_succ, List.getElem_concat_length] at hlast
  exact ⟨first, inner, last, hline, (congrArg Fin.val hfirst).symm,
    (congrArg (·.val + 1) hlast.symm).trans hlength.symm⟩

/-- The first position and the last one stay, whichever passes are made. -/
theorem exists_candidates (h : 2 ≤ points.length) (limit : α) (highQuality : Bool) :
    ∃ first inner last, candidates points limit highQuality = first :: (inner ++ [last])
      ∧ first.val = 0 ∧ last.val + 1 = points.length := by
  obtain ⟨first, inner, last, hline, hfirst, hlast⟩ := exists_ends_finRange h
  cases highQuality with
  | true => exact ⟨first, inner, last, hline, hfirst, hlast⟩
  | false =>
      refine ⟨first, spread (gapAt points) limit first inner, last, ?_, hfirst, hlast⟩
      rw [candidates, if_neg Bool.false_ne_true, hline, thin_ends]

/-- The points at the candidates are those of the line, or those the coarser pass keeps. -/
theorem map_get_candidates (h : 2 ≤ points.length) (limit : α) (highQuality : Bool) :
    (candidates points limit highQuality).map points.get
      = if highQuality then points else thin gap limit points := by
  cases highQuality with
  | true => exact List.map_get_finRange points
  | false =>
      have hlength : 2 ≤ (List.finRange points.length).length := by simpa using h
      have hmap := thin_map points.get gap limit hlength
      rw [List.map_get_finRange] at hmap
      exact hmap.symm

/-- A simplified line has the points at the positions that a reduction of the candidates
keeps. -/
theorem simplify_eq_map_reduce (h : 2 ≤ points.length) (tolerance : α) (highQuality : Bool) :
    simplify points tolerance highQuality
      = (reduce (deviationAt points) (tolerance * tolerance)
          (candidates points (tolerance * tolerance) highQuality)).map points.get := by
  have hlength : 2 ≤ (List.finRange points.length).length := by simpa using h
  have hmap := passes_map points.get gap deviation (tolerance * tolerance) highQuality hlength
  rw [List.map_get_finRange] at hmap
  exact hmap

variable (points) in
theorem pairwise_reduce (limit : α) (highQuality : Bool) :
    (reduce (deviationAt points) limit (candidates points limit highQuality)).Pairwise (· < ·) :=
  (List.pairwise_lt_finRange _).sublist
    (passes_sublist (gapAt points) (deviationAt points) limit highQuality _)

end

end Simplify

open Simplify

variable {α : Type} [Scalar α] [StrictlyOrdered α]

theorem ends_inj {β : Type} {first first' last last' : β} {inner inner' : List β}
    (h : first :: (inner ++ [last]) = first' :: (inner' ++ [last'])) :
    first = first' ∧ inner = inner' ∧ last = last' := by
  obtain ⟨hfirst, hrest⟩ := List.cons.inj h
  obtain ⟨hinner, hlast⟩ := List.append_inj' hrest rfl
  exact ⟨hfirst, hinner, List.singleton_inj.mp hlast⟩

/-- A line of two points or more is simplified as the recursion says, whatever the
tolerance. Among all its positions, or those the coarser pass keeps, the first and the last
stay, and between them what is kept is what `Divided` says, and nothing else. The positions
ascend, and the simplified line is what stands there. A search that looks at its stretches
in any order comes to the same: it takes no more steps than there are inner positions, goes
on while something is pending, and in the end has marked the positions kept. -/
theorem simplify_by_recursion (points : List (Point α)) (tolerance : α) (highQuality : Bool)
    (h : 2 ≤ points.length) :
    ∃ first inner last kept,
      candidates points (tolerance * tolerance) highQuality = first :: (inner ++ [last])
        ∧ (first :: (inner ++ [last])).map points.get
          = (if highQuality then points else thin gap (tolerance * tolerance) points)
        ∧ first.val = 0 ∧ last.val + 1 = points.length
        ∧ (∀ ks, Divided (deviationAt points) (tolerance * tolerance) first inner last ks
            ↔ ks = kept)
        ∧ (first :: (kept ++ [last])).Pairwise (· < ·)
        ∧ simplify points tolerance highQuality = (first :: (kept ++ [last])).map points.get
        ∧ ∀ n s, Search.Run (deviationAt points) (tolerance * tolerance) n
            (.start first inner last) s →
          n ≤ inner.length
            ∧ (s.pending ≠ [] →
              ∃ t, Search.Step (deviationAt points) (tolerance * tolerance) s t)
            ∧ (s.pending = [] → (List.finRange points.length).filter (· ∈ s.marked)
                = first :: (kept ++ [last])) := by
  obtain ⟨first, inner, last, hcandidates, hfirst, hlast⟩ :=
    exists_candidates h (tolerance * tolerance) highQuality
  have hpoints := map_get_candidates h (tolerance * tolerance) highQuality
  have hascend := pairwise_reduce points (tolerance * tolerance) highQuality
  have hsimplify := simplify_eq_map_reduce h tolerance highQuality
  rw [hcandidates] at hpoints
  rw [hcandidates, reduce_ends] at hascend hsimplify
  refine ⟨first, inner, last, _, hcandidates, hpoints, hfirst, hlast, fun ks => divided_iff,
    hascend, hsimplify, fun n s hrun => ⟨?_, Search.exists_step, fun hdone => ?_⟩⟩
  · have hle := hrun.add_left_le
    rw [Search.left_start] at hle
    exact Nat.le_of_add_right_le hle
  · exact filter_mem_finRange hascend (hrun.marked_perm hdone)

/-- A line of doubles with two corners, the second within the tolerance of the first and
farther out, and after them a latitude that is not a number. The coarser pass keeps the first
corner and drops the second, so the first is what stays. Without that pass the second is cut
at, and then the first is too close to the section before it. -/
theorem simplify_by_recursion_of_doubles :
    let points : List (Point Float) := [⟨0, 0, none⟩, ⟨4, 3, none⟩, ⟨4, 3.5, none⟩,
      ⟨6, 0 / 0, none⟩, ⟨8, 0, none⟩]
    2 ≤ points.length
      ∧ simplify points (-1) false = [⟨0, 0, none⟩, ⟨4, 3, none⟩, ⟨8, 0, none⟩]
      ∧ simplify points (-1) true = [⟨0, 0, none⟩, ⟨4, 3.5, none⟩, ⟨8, 0, none⟩] := by
  intro points
  have hlength : 2 ≤ points.length := by decide
  refine ⟨hlength, ?_, ?_⟩
  · obtain ⟨first, inner, last, kept, hcandidates, -, -, -, hdivided, -, hsimplify, -⟩ :=
      simplify_by_recursion points (-1) false hlength
    have hthin : candidates points (-1 * -1) false = 0 :: ([1] ++ [4]) := by decide +kernel
    obtain ⟨rfl, rfl, rfl⟩ := ends_inj (hthin.symm.trans hcandidates)
    have hbent : Divided (deviationAt points) (-1 * -1) 0 [1] 4 ([] ++ 1 :: []) :=
      .bent (c := ⟨[], 1, []⟩) ⟨rfl, by decide +kernel, by simp, by simp⟩ (.flat (by simp))
        (.flat (by simp))
    obtain rfl := (hdivided [1]).mp hbent
    exact hsimplify
  · obtain ⟨first, inner, last, kept, hcandidates, -, -, -, hdivided, -, hsimplify, -⟩ :=
      simplify_by_recursion points (-1) true hlength
    have hall : candidates points (-1 * -1) true = 0 :: ([1, 2, 3] ++ [4]) := by decide +kernel
    obtain ⟨rfl, rfl, rfl⟩ := ends_inj (hall.symm.trans hcandidates)
    have hbent : Divided (deviationAt points) (-1 * -1) 0 [1, 2, 3] 4 ([] ++ 2 :: []) :=
      .bent (c := ⟨[1], 2, [3]⟩)
        ⟨rfl, by decide +kernel, by decide +kernel, by decide +kernel⟩
        (.flat (by decide +kernel)) (.flat (by decide +kernel))
    obtain rfl := (hdivided [2]).mp hbent
    exact hsimplify

end Graticule
