import Graticule.Proofs.Between

/-!
# The first of the nearest

A snap is the first of the nearest candidates, if any of them is at a distance at all:
those before it are farther, and those after it are not nearer. Candidates whose distance
is not a number count for nothing, and if there are no others the snap is nowhere, on the
first segment. Wherever it is, its segment is one of the line's, so the part of a line
between two snaps has all the vertices it asks for.

The vertices of a line are candidates, once or twice each. So no vertex is nearer than
the snap, the nearest of them among others.
-/

namespace Graticule

open Simplify

variable {α : Type}

namespace Snap

/-- The first of the nearest of some candidates. -/
def FirstNearest [Scalar α] (s : Snap α) (cs : List (Snap α)) : Prop :=
  ∃ before after, cs = before ++ s :: after ∧ Scalar.isNaN s.distance = false
    ∧ (∀ c ∈ before, Scalar.isNaN c.distance = false → s.distance < c.distance)
    ∧ ∀ c ∈ after, Scalar.isNaN c.distance = false → s.distance ≤ c.distance

variable [Trig α] [StrictlyOrdered α] {p v : Point α} {path : List (Point α)} {unit : LengthUnit}
  {s c : Snap α} {cs : List (Snap α)}

omit [StrictlyOrdered α] in
theorem FirstNearest.mem (h : s.FirstNearest cs) : s ∈ cs := by
  obtain ⟨before, after, rfl, -⟩ := h
  simp

theorem FirstNearest.le (h : s.FirstNearest cs) (hc : c ∈ cs)
    (hnumber : Scalar.isNaN c.distance = false) : s.distance ≤ c.distance := by
  obtain ⟨before, after, rfl, hs, hbefore, hafter⟩ := h
  rcases List.mem_append.mp hc with hc | hc
  · have hlt := hbefore c hc hnumber
    exact StrictlyOrdered.le_iff.mpr ⟨hs, hnumber, fun hgt =>
      StrictlyOrdered.lt_irrefl (StrictlyOrdered.lt_trans hlt hgt)⟩
  · rcases List.mem_cons.mp hc with rfl | hc
    · exact StrictlyOrdered.le_iff.mpr ⟨hs, hs, StrictlyOrdered.lt_irrefl⟩
    · exact hafter c hc hnumber

/-- What is kept of some candidates is the first of the nearest, as soon as one of them is
nearer than what was there before. -/
theorem firstNearest_foldl {best : Snap α} (h : ∃ c ∈ cs, c.distance < best.distance) :
    (cs.foldl nearer best).FirstNearest cs := by
  rcases foldl_nearer best cs with
    ⟨-, hnone⟩ | ⟨before, s, after, hsplit, hfold, hs, hbefore, hafter⟩
  · obtain ⟨c, hc, hlt⟩ := h
    exact absurd hlt (hnone c hc)
  · have hnumber := (StrictlyOrdered.number_of_lt hs).1
    rw [hfold]
    refine ⟨before, after, hsplit, hnumber, ?_, ?_⟩
    · intro c hc hc'
      by_contra hlt
      exact hbefore c hc (StrictlyOrdered.le_iff.mpr ⟨hc', hnumber, hlt⟩)
    · intro c hc hc'
      exact StrictlyOrdered.le_iff.mpr ⟨hnumber, hc', hafter c hc⟩

/-! ## The nearest vertex -/

section

variable {α : Type} [Trig α]

/-- A point as the snap it would be if it were on a line. -/
def ofVertex (p v : Point α) : Snap α := ⟨v, Graticule.distance p v default, 0⟩

theorem foldl_nearest (p q : Point α) (d : α) (vs : List (Point α)) :
    (vs.foldl
        (fun (best : Point α × α) v =>
          let d := Graticule.distance p v default
          if d < best.2 then (v, d) else best) (q, d)).1
      = ((vs.map (ofVertex p)).foldl nearer ⟨q, d, 0⟩).point := by
  induction vs generalizing q d with
  | nil => rfl
  | cons v vs ih =>
      rw [List.foldl_cons, List.map_cons, List.foldl_cons, nearer, ofVertex]
      dsimp only
      split
      · exact ih v _
      · exact ih q d

/-- The nearest of some points is found as the nearest of candidates is. -/
theorem nearest_eq (p : Point α) (vs : List (Point α)) :
    nearest p vs = ((vs.map (ofVertex p)).foldl nearer ⟨p, Trig.infinity, 0⟩).point :=
  foldl_nearest p p Trig.infinity vs

end

theorem nearest_mem {vs : List (Point α)}
    (h : ∃ v ∈ vs, Graticule.distance p v default < (Trig.infinity : α)) :
    nearest p vs ∈ vs
      ∧ Scalar.isNaN (Graticule.distance p (nearest p vs) default) = false := by
  obtain ⟨v, hv, hlt⟩ := h
  have hsome : ∃ c ∈ vs.map (ofVertex p), c.distance < (Trig.infinity : α) :=
    ⟨_, List.mem_map_of_mem hv, hlt⟩
  have hfirst : ((vs.map (ofVertex p)).foldl nearer ⟨p, Trig.infinity, 0⟩).FirstNearest
      (vs.map (ofVertex p)) := firstNearest_foldl hsome
  obtain ⟨w, hw, hfold⟩ := List.mem_map.mp hfirst.mem
  obtain ⟨-, -, -, hnumber, -⟩ := hfirst
  rw [← hfold] at hnumber
  rw [nearest_eq, ← hfold]
  exact ⟨hw, hnumber⟩

/-! ## Snaps -/

/-- If distances are less than what nothing exceeds, a snap is the first of the nearest. -/
theorem toLine_firstNearest (h : toLine p path unit = .ok s)
    (hfar : ∀ c ∈ candidates p path unit, Scalar.isNaN c.distance = false →
      c.distance < (Trig.infinity : α))
    (hsome : ∃ c ∈ candidates p path unit, Scalar.isNaN c.distance = false) :
    s.FirstNearest (candidates p path unit) := by
  obtain ⟨-, rfl⟩ := toLine_eq_ok h
  obtain ⟨c, hc, hnumber⟩ := hsome
  exact firstNearest_foldl ⟨c, hc, hfar c hc hnumber⟩

theorem distance_le_nearest (h : toLine p path default = .ok s)
    (hfar : ∀ c ∈ candidates p path default, Scalar.isNaN c.distance = false →
      c.distance < (Trig.infinity : α))
    (hvertex : ∃ v ∈ path, Scalar.isNaN (Graticule.distance p v default) = false) :
    s.distance ≤ Graticule.distance p (nearest p path) default := by
  have hlength := (toLine_eq_ok h).1
  obtain ⟨v, hv, hnumber⟩ := hvertex
  obtain ⟨c, hc, hdistance⟩ := exists_candidate_of_mem p default hv hlength
  rw [← hdistance] at hnumber
  have hfirst := toLine_firstNearest h hfar ⟨c, hc, hnumber⟩
  have hlt : Graticule.distance p v default < (Trig.infinity : α) := hdistance ▸ hfar c hc hnumber
  obtain ⟨hmem, hnearest⟩ := nearest_mem ⟨v, hv, hlt⟩
  obtain ⟨e, he, hedistance⟩ := exists_candidate_of_mem p default hmem hlength
  rw [← hedistance] at hnearest ⊢
  exact hfirst.le he hnearest

/-! ## The part of a line between two snaps -/

omit [Trig α] [StrictlyOrdered α] in
theorem length_through {first last : Snap α} (hle : first.index ≤ last.index)
    (hlast : last.index < path.length) :
    (through first last path).length = last.index - first.index + 2 := by
  rw [through, List.length_cons, List.length_append, List.length_take, List.length_drop,
    List.length_singleton]
  omega

end Snap

/-- Between the segments of two snaps no vertex is missing. -/
theorem length_lineBetween [Trig α] [StrictlyOrdered α] {p q : Point α} {path : List (Point α)}
    {a b : Snap α} (hne : (p == q) = false) (ha : Snap.toLine p path default = .ok a)
    (hb : Snap.toLine q path default = .ok b) :
    ∃ line, lineBetween p q path = .ok line
      ∧ line.points.length = max a.index b.index - min a.index b.index + 2 := by
  have halast := Snap.index_lt_of_toLine ha
  have hblast := Snap.index_lt_of_toLine hb
  refine ⟨_, lineBetween_eq hne ha hb, ?_⟩
  dsimp only
  split
  · next hle => rw [Snap.length_through hle (by omega), max_eq_right hle, min_eq_left hle]
  · next hgt =>
      have hle : b.index ≤ a.index := by omega
      rw [Snap.length_through hle (by omega), max_eq_left hle, min_eq_right hle]

end Graticule
