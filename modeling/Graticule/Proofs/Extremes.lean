import Graticule.Extent
import Graticule.Proofs.Ordered

/-!
# Extremes

Each side of a least box is the first of the least or of the greatest values of a
coordinate, skipping those that are not numbers. It is found by a fold that keeps the
better of two values, and keeping the better of two is associative, so it does not matter
that the fold starts from a value that may not be a number, nor where a list is cut.

West and south look for the least value, east and north for the greatest. Both are one
search, along the order or against it.
-/

namespace Graticule

variable {α : Type} [Scalar α]

/-- A strict relation ranks the values that are numbers, and a weak one says that a number
is not outranked by another. -/
structure Ranking (lt le : α → α → Prop) : Prop where
  irrefl {a : α} : ¬ lt a a
  trans {a b c : α} : lt a b → lt b c → lt a c
  or_of_lt {a b c : α} : lt a c → Scalar.isNaN b = false → lt a b ∨ lt b c
  number {a b : α} : lt a b → Scalar.isNaN a = false ∧ Scalar.isNaN b = false
  le_iff {a b : α} : le a b ↔ Scalar.isNaN a = false ∧ Scalar.isNaN b = false ∧ ¬ lt b a

section

variable [StrictlyOrdered α]

theorem ranking_lt : Ranking (α := α) (· < ·) (· ≤ ·) where
  irrefl := StrictlyOrdered.lt_irrefl
  trans := StrictlyOrdered.lt_trans
  or_of_lt := StrictlyOrdered.lt_or_lt
  number := StrictlyOrdered.number_of_lt
  le_iff := StrictlyOrdered.le_iff

theorem ranking_gt : Ranking (α := α) (· > ·) (· ≥ ·) where
  irrefl := StrictlyOrdered.lt_irrefl
  trans hab hbc := StrictlyOrdered.lt_trans hbc hab
  or_of_lt h hb := (StrictlyOrdered.lt_or_lt h hb).symm
  number h := (StrictlyOrdered.number_of_lt h).symm
  le_iff := StrictlyOrdered.le_iff.trans and_left_comm

end

/-- The better of two values, the first where neither is, skipping one that is not a
number. -/
def pick (lt : α → α → Prop) [DecidableRel lt] (a b : α) : α :=
  if Scalar.isNaN a then b else if lt b a then b else a

theorem lesser_eq_pick : Scalar.lesser (α := α) = pick (· < ·) := rfl

theorem greater_eq_pick : Scalar.greater (α := α) = pick (· > ·) := rfl

/-- One of some values that none of the numbers among them outranks. -/
structure Extreme (le : α → α → Prop) (xs : List α) (m : α) : Prop where
  mem : m ∈ xs
  nan : Scalar.isNaN m = true → ∀ x ∈ xs, Scalar.isNaN x = true
  le : ∀ x ∈ xs, Scalar.isNaN x = false → le m x

namespace Ranking

variable {lt le : α → α → Prop} (h : Ranking lt le) {a b c m : α} {xs ys : List α}

include h

theorem le_refl (ha : Scalar.isNaN a = false) : le a a := h.le_iff.mpr ⟨ha, ha, h.irrefl⟩

theorem le_trans (hab : le a b) (hbc : le b c) : le a c := by
  obtain ⟨ha, hb, hnot⟩ := h.le_iff.mp hab
  obtain ⟨-, hc, hnot'⟩ := h.le_iff.mp hbc
  exact h.le_iff.mpr ⟨ha, hc, fun hca => (h.or_of_lt hca hb).elim hnot' hnot⟩

theorem not_lt_of_isNaN (hb : Scalar.isNaN b = true) : ¬ lt b a := by
  intro hlt
  rw [(h.number hlt).1] at hb
  cases hb

/-- What is not outranked by a number is one itself. -/
theorem extreme_of_le (hmem : m ∈ xs) (hle : ∀ x ∈ xs, Scalar.isNaN x = false → le m x) :
    Extreme le xs m := by
  refine ⟨hmem, fun hm x hx => ?_, hle⟩
  cases hx' : Scalar.isNaN x with
  | true => rfl
  | false =>
      have hnumber := (h.le_iff.mp (hle x hx hx')).1
      rw [hm] at hnumber
      cases hnumber

/-! ## The better of two -/

section

variable [DecidableRel lt]

theorem pick_self (a : α) : pick lt a a = a := by
  rw [pick, if_neg h.irrefl, ite_self]

theorem pick_le_left (ha : Scalar.isNaN a = false) : le (pick lt a b) a := by
  rw [pick, if_neg (Bool.eq_false_iff.mp ha)]
  split
  · next hlt =>
      exact h.le_iff.mpr ⟨(h.number hlt).1, ha, fun hgt => h.irrefl (h.trans hlt hgt)⟩
  · exact h.le_refl ha

theorem pick_le_right (hb : Scalar.isNaN b = false) : le (pick lt a b) b := by
  unfold pick
  split
  · exact h.le_refl hb
  · next ha =>
      split
      · exact h.le_refl hb
      · next hlt => exact h.le_iff.mpr ⟨Bool.eq_false_iff.mpr ha, hb, hlt⟩

omit h in
theorem pick_eq_or (a b : α) : pick lt a b = a ∨ pick lt a b = b := by
  unfold pick
  split
  · exact .inr rfl
  · split
    · exact .inr rfl
    · exact .inl rfl

theorem pick_assoc (a b c : α) : pick lt (pick lt a b) c = pick lt a (pick lt b c) := by
  by_cases ha : Scalar.isNaN a = true
  · simp only [pick, if_pos ha]
  by_cases hb : Scalar.isNaN b = true
  · simp only [pick, if_neg ha, if_pos hb, if_neg (h.not_lt_of_isNaN hb)]
  simp only [pick, if_neg ha, if_neg hb]
  by_cases hba : lt b a <;> by_cases hcb : lt c b
  · simp only [if_pos hba, if_pos hcb, if_neg hb, if_pos (h.trans hcb hba)]
  · simp only [if_pos hba, if_neg hcb, if_neg hb]
  · simp only [if_neg hba, if_pos hcb, if_neg ha]
  · -- what beats the first beats the second, or the second beats the first
    have hca : ¬ lt c a := fun hca =>
      (h.or_of_lt hca (Bool.eq_false_iff.mpr hb)).elim hcb hba
    simp only [if_neg hba, if_neg hcb, if_neg ha, if_neg hca]

/-! ## The best of many -/

theorem extreme_foldl (a : α) (xs : List α) : Extreme le (a :: xs) (xs.foldl (pick lt) a) := by
  induction xs generalizing a with
  | nil =>
      refine h.extreme_of_le List.mem_cons_self fun x hx hnumber => ?_
      rw [List.mem_singleton.mp hx] at hnumber ⊢
      exact h.le_refl hnumber
  | cons b xs ih =>
      have hrest := ih (pick lt a b)
      -- what the better of two bounds, the best of all bounds
      have hbetter {x : α} (hle : le (pick lt a b) x) : le (xs.foldl (pick lt) (pick lt a b)) x :=
        h.le_trans (hrest.le _ List.mem_cons_self (h.le_iff.mp hle).1) hle
      refine h.extreme_of_le ?_ fun x hx hnumber => ?_
      · rcases List.mem_cons.mp hrest.mem with heq | hmem
        · rw [List.foldl_cons, heq]
          have hpick : pick lt a b = a ∨ pick lt a b = b := pick_eq_or a b
          rcases hpick with hpick | hpick <;> simp [hpick]
        · exact List.mem_cons_of_mem _ (List.mem_cons_of_mem _ hmem)
      · rcases List.mem_cons.mp hx with rfl | hx
        · exact hbetter (h.pick_le_left hnumber)
        · rcases List.mem_cons.mp hx with rfl | hx
          · exact hbetter (h.pick_le_right hnumber)
          · exact hrest.le x (List.mem_cons_of_mem _ hx) hnumber

/-- The best of two lists is the better of the best of each. -/
theorem foldl_pick_append (a b : α) (xs ys : List α) :
    (xs ++ b :: ys).foldl (pick lt) a
      = pick lt (xs.foldl (pick lt) a) (ys.foldl (pick lt) b) := by
  have : Std.Associative (pick lt) := ⟨h.pick_assoc⟩
  rw [List.foldl_append, List.foldl_cons, List.foldl_assoc]

end

/-- Extremes are not numbers, or bound each other, where the second are of some of the values
and none of the others outranks all of these. -/
theorem extremes_tie {m' : α} (hm : Extreme le xs m) (hm' : Extreme le ys m') (hsubset : ys ⊆ xs)
    (hcover : ∀ x ∈ xs, Scalar.isNaN x = false → ∃ y ∈ ys, le y x) :
    Scalar.isNaN m = true ∧ Scalar.isNaN m' = true ∨ le m m' ∧ le m' m := by
  have hmem' := hsubset hm'.mem
  cases hnan : Scalar.isNaN m with
  | true => exact .inl ⟨rfl, hm.nan hnan m' hmem'⟩
  | false =>
      obtain ⟨y, hy, hym⟩ := hcover m hm.mem hnan
      have hle := h.le_trans (hm'.le y hy (h.le_iff.mp hym).1) hym
      exact .inr ⟨hm.le m' hmem' (h.le_iff.mp hle).1, hle⟩

end Ranking

/-! ## Boxes -/

namespace Box

/-- The box whose sides are the better of those of two boxes. -/
def join (b c : Box α) : Box α :=
  .ofSides (Scalar.lesser b.west c.west) (Scalar.lesser b.south c.south)
    (Scalar.greater b.east c.east) (Scalar.greater b.north c.north)

/-- A box without altitudes whose sides are the extremes of the coordinates of some
points. -/
structure Bounds (b : Box α) (points : List (Point α)) : Prop where
  flat : b = .ofSides b.west b.south b.east b.north
  west : Extreme (· ≤ ·) (points.map Point.longitude) b.west
  south : Extreme (· ≤ ·) (points.map Point.latitude) b.south
  east : Extreme (· ≥ ·) (points.map Point.longitude) b.east
  north : Extreme (· ≥ ·) (points.map Point.latitude) b.north

theorem foldl_grow (west south east north : α) (points : List (Point α)) :
    points.foldl grow (.ofSides west south east north)
      = .ofSides ((points.map Point.longitude).foldl Scalar.lesser west)
          ((points.map Point.latitude).foldl Scalar.lesser south)
          ((points.map Point.longitude).foldl Scalar.greater east)
          ((points.map Point.latitude).foldl Scalar.greater north) := by
  induction points generalizing west south east north with
  | nil => rfl
  | cons p points ih => exact ih _ _ _ _

variable [StrictlyOrdered α]

/-- The first point is looked at twice, which changes nothing. -/
theorem around?_cons (p : Point α) (points : List (Point α)) :
    around? (p :: points)
      = some (.ofSides ((points.map Point.longitude).foldl Scalar.lesser p.longitude)
          ((points.map Point.latitude).foldl Scalar.lesser p.latitude)
          ((points.map Point.longitude).foldl Scalar.greater p.longitude)
          ((points.map Point.latitude).foldl Scalar.greater p.latitude)) := by
  show some ((p :: points).foldl grow _) = _
  rw [foldl_grow]
  simp only [List.map_cons, List.foldl_cons, lesser_eq_pick, greater_eq_pick,
    ranking_lt.pick_self, ranking_gt.pick_self]

theorem around?_bounds {points : List (Point α)} {b : Box α} (h : around? points = some b) :
    b.Bounds points := by
  cases points with
  | nil => cases h
  | cons p points =>
      rw [around?_cons, Option.some.injEq] at h
      subst h
      exact ⟨rfl, ranking_lt.extreme_foldl _ _, ranking_lt.extreme_foldl _ _,
        ranking_gt.extreme_foldl _ _, ranking_gt.extreme_foldl _ _⟩

omit [StrictlyOrdered α] in
/-- A box around points takes in each of their coordinates that is a number. -/
theorem Bounds.within {points : List (Point α)} {b : Box α} (h : b.Bounds points) {p : Point α}
    (hp : p ∈ points) :
    (Scalar.isNaN p.longitude = false → b.west ≤ p.longitude ∧ p.longitude ≤ b.east)
      ∧ (Scalar.isNaN p.latitude = false → b.south ≤ p.latitude ∧ p.latitude ≤ b.north) := by
  have hlongitude := List.mem_map_of_mem (f := Point.longitude) hp
  have hlatitude := List.mem_map_of_mem (f := Point.latitude) hp
  exact ⟨fun hnumber => ⟨h.west.le _ hlongitude hnumber, h.east.le _ hlongitude hnumber⟩,
    fun hnumber => ⟨h.south.le _ hlatitude hnumber, h.north.le _ hlatitude hnumber⟩⟩

theorem around?_append {points others : List (Point α)} {b c : Box α}
    (hb : around? points = some b) (hc : around? others = some c) :
    around? (points ++ others) = some (b.join c) := by
  cases points with
  | nil => cases hb
  | cons p points =>
      cases others with
      | nil => cases hc
      | cons q others =>
          rw [around?_cons, Option.some.injEq] at hb hc
          subst hb hc
          rw [List.cons_append, around?_cons]
          simp only [List.map_append, List.map_cons, lesser_eq_pick, greater_eq_pick,
            ranking_lt.foldl_pick_append, ranking_gt.foldl_pick_append]
          rfl

theorem exists_around? {points : List (Point α)} (h : points ≠ []) :
    ∃ b, around? points = some b := by
  cases points with
  | nil => exact absurd rfl h
  | cons p points => exact ⟨_, around?_cons p points⟩

end Box

end Graticule
