import Graticule.Proofs.Ordered
import Graticule.Proofs.Reduction
import Graticule.Snap

/-!
# The point of a line nearest to a point

Of all candidates, segment by segment, a snap is the first of the nearest: nothing
before it is as near, and nothing after it is nearer. This holds for any strict order
on distances, with candidates in between whose distance is not a number. They are never
taken, so they are not nearer, nor as near.

A vertex between two segments is a candidate of both, of the earlier one first and at
the same distance. So no snap to the later segment is at its start.
-/

namespace Graticule.Snap

open Simplify

variable {α : Type} [Trig α] {p : Point α} {path : List (Point α)} {unit : LengthUnit}
  {s c : Snap α}

/-! ## The first of the nearest -/

theorem foldl_nearer [StrictlyOrdered α] (best : Snap α) (cs : List (Snap α)) :
    (cs.foldl nearer best = best ∧ ∀ c ∈ cs, ¬ c.distance < best.distance)
      ∨ ∃ before s after, cs = before ++ s :: after ∧ cs.foldl nearer best = s
        ∧ s.distance < best.distance ∧ (∀ c ∈ before, ¬ c.distance ≤ s.distance)
        ∧ ∀ c ∈ after, ¬ c.distance < s.distance := by
  induction cs generalizing best with
  | nil => exact .inl ⟨rfl, by simp⟩
  | cons c cs ih =>
      rw [List.foldl_cons, nearer]
      split
      · next hlt =>
          rcases ih c with ⟨hfold, hrest⟩ | ⟨before, s, after, rfl, hfold, hs, hbefore, hafter⟩
          · exact .inr ⟨[], c, cs, rfl, hfold, hlt, by simp, hrest⟩
          · refine .inr ⟨c :: before, s, after, rfl, hfold, StrictlyOrdered.lt_trans hs hlt,
              List.forall_mem_cons.mpr ⟨?_, hbefore⟩, hafter⟩
            intro hle
            exact (StrictlyOrdered.le_iff.mp hle).2.2 hs
      · next hlt =>
          rcases ih best with ⟨hfold, hrest⟩ | ⟨before, s, after, rfl, hfold, hs, hbefore, hafter⟩
          · exact .inl ⟨hfold, List.forall_mem_cons.mpr ⟨hlt, hrest⟩⟩
          · refine .inr ⟨c :: before, s, after, rfl, hfold, hs,
              List.forall_mem_cons.mpr ⟨?_, hbefore⟩, hafter⟩
            intro hle
            exact hlt (StrictlyOrdered.lt_of_le_of_lt hle hs)

/-! ## The candidates -/

theorem mem_ofSegment {segment : Segment α} {index : Nat}
    (h : c ∈ ofSegment p segment index unit) :
    c.index = index ∧ c.distance = Graticule.distance p c.point unit := by
  simp only [ofSegment, List.mem_cons, Option.mem_toList, Option.map_eq_some_iff] at h
  rcases h with rfl | rfl | ⟨q, -, rfl⟩
  · exact ⟨rfl, rfl⟩
  · exact ⟨rfl, rfl⟩
  · exact ⟨rfl, rfl⟩

theorem mem_candidates (h : c ∈ candidates p path unit) :
    c.index + 1 < path.length ∧ c.distance = Graticule.distance p c.point unit := by
  obtain ⟨⟨segment, index⟩, hsegment, hc⟩ := List.mem_flatMap.mp h
  obtain ⟨hindex, hdistance⟩ := mem_ofSegment hc
  obtain ⟨-, hstop⟩ := List.getElem?_zip_eq_some.mp (getElem?_of_mem_zipIdx hsegment)
  rw [List.getElem?_tail] at hstop
  obtain ⟨hlt, -⟩ := List.getElem?_eq_some_iff.mp hstop
  exact ⟨hindex ▸ hlt, hdistance⟩

theorem mem_candidates_of_mem_ofSegment {u v : Point α} {index : Nat}
    (hu : path[index]? = some u) (hv : path[index + 1]? = some v)
    (hc : c ∈ ofSegment p (u, v) index unit) : c ∈ candidates p path unit := by
  have hsegment : ((u, v), index) ∈ (legs path).zipIdx := by
    rw [List.mk_mem_zipIdx_iff_getElem?, legs, List.getElem?_zip_eq_some, List.getElem?_tail]
    exact ⟨hu, hv⟩
  exact List.mem_flatMap.mpr ⟨_, hsegment, hc⟩

/-- The end of a segment is a candidate of it. -/
theorem stop_mem_candidates {v : Point α} {index : Nat} (hv : path[index + 1]? = some v) :
    (⟨v, Graticule.distance p v unit, index⟩ : Snap α) ∈ candidates p path unit := by
  obtain ⟨hlt, -⟩ := List.getElem?_eq_some_iff.mp hv
  refine mem_candidates_of_mem_ofSegment (List.getElem?_eq_getElem (by omega)) hv ?_
  simp [ofSegment]

theorem exists_candidate_of_mem (p : Point α) (unit : LengthUnit) {v : Point α} (hv : v ∈ path)
    (hlength : 2 ≤ path.length) :
    ∃ c ∈ candidates p path unit, c.distance = Graticule.distance p v unit := by
  obtain ⟨index, hindex⟩ := List.mem_iff_getElem?.mp hv
  cases index with
  | succ index => exact ⟨_, stop_mem_candidates hindex, rfl⟩
  | zero =>
      refine ⟨⟨v, Graticule.distance p v unit, 0⟩, ?_, rfl⟩
      refine mem_candidates_of_mem_ofSegment hindex (List.getElem?_eq_getElem hlength) ?_
      simp [ofSegment]

theorem pairwise_candidates (p : Point α) (path : List (Point α)) (unit : LengthUnit) :
    (candidates p path unit).Pairwise fun c d => c.index ≤ d.index := by
  refine List.pairwise_flatMap.mpr ⟨?_, ?_⟩
  · rintro ⟨segment, index⟩ -
    refine List.pairwise_iff_forall_sublist.mpr fun {c d} hcd => ?_
    have hc := mem_ofSegment (hcd.subset (by simp : c ∈ [c, d]))
    have hd := mem_ofSegment (hcd.subset (by simp : d ∈ [c, d]))
    exact (hc.1.trans hd.1.symm).le
  · refine (pairwise_zipIdx (legs path)).imp fun {s t} hlt c hc d hd => ?_
    rw [(mem_ofSegment hc).1, (mem_ofSegment hd).1]
    exact hlt.le

/-! ## Snaps -/

theorem toLine_of_length (p : Point α) (unit : LengthUnit) (h : 2 ≤ path.length) :
    toLine p path unit = .ok ((candidates p path unit).foldl nearer nowhere) :=
  if_neg (by omega)

theorem toLine_eq_ok (h : toLine p path unit = .ok s) :
    2 ≤ path.length ∧ (candidates p path unit).foldl nearer nowhere = s := by
  unfold toLine at h
  split at h
  · cases h
  · next hlength => exact ⟨by omega, Except.ok.inj h⟩

variable [StrictlyOrdered α]

theorem index_lt_of_toLine (h : toLine p path unit = .ok s) : s.index + 1 < path.length := by
  obtain ⟨hlength, rfl⟩ := toLine_eq_ok h
  rcases foldl_nearer nowhere (candidates p path unit) with
    ⟨hnowhere, -⟩ | ⟨before, c, after, hsplit, hfold, -⟩
  · rw [hnowhere]
    exact hlength
  · rw [hfold]
    exact (mem_candidates (by rw [hsplit]; simp)).1

/-- A snap is not at the start of its segment, unless that is the first one: if the
start is as far from the point, it is taken on the segment before. -/
theorem start_ne_of_toLine (h : toLine p path unit = .ok s) {v : Point α} (hpos : 0 < s.index)
    (hv : path[s.index]? = some v)
    (hsteady : (v == s.point) = true →
      Graticule.distance p v unit = Graticule.distance p s.point unit) :
    (v == s.point) = false := by
  obtain ⟨hlength, hs⟩ := toLine_eq_ok h
  rcases foldl_nearer nowhere (candidates p path unit) with
    ⟨hnowhere, -⟩ | ⟨before, c, after, hsplit, hfold, hnear, hbefore, -⟩
  · rw [← hs, hnowhere] at hpos
    exact absurd hpos (lt_irrefl 0)
  · obtain rfl : c = s := hfold.symm.trans hs
    -- The start of the segment is a candidate as the end of the segment before.
    obtain ⟨index, hindex⟩ : ∃ index, c.index = index + 1 := ⟨c.index - 1, by omega⟩
    rw [hindex] at hv
    have hmem : (⟨v, Graticule.distance p v unit, index⟩ : Snap α) ∈ candidates p path unit :=
      stop_mem_candidates hv
    have hdistance : c.distance = Graticule.distance p c.point unit :=
      (mem_candidates (hsplit ▸ List.mem_append_right _ List.mem_cons_self)).2
    have hordered := pairwise_candidates p path unit
    rw [hsplit] at hmem hordered
    rw [List.pairwise_append, List.pairwise_cons] at hordered
    apply Bool.eq_false_iff.mpr
    intro hsame
    -- Before `c`, a candidate as near would have been taken. After it, there is none on an
    -- earlier segment.
    rcases List.mem_append.mp hmem with hearlier | hlater
    · refine hbefore _ hearlier ?_
      have hnumber := (StrictlyOrdered.number_of_lt hnear).1
      rw [hsteady hsame, ← hdistance]
      exact StrictlyOrdered.le_iff.mpr ⟨hnumber, hnumber, StrictlyOrdered.lt_irrefl⟩
    · have hle : c.index ≤ index := by
        rcases List.mem_cons.mp hlater with hself | hafter
        · rw [← hself]
        · exact hordered.2.1.1 _ hafter
      omega

end Graticule.Snap
