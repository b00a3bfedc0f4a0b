import Graticule.Proofs.HalfPlane
import Graticule.Proofs.Sides
import Mathlib.Data.List.MinMax
import Mathlib.Data.List.Triplewise
import Mathlib.Data.Sign.Basic

/-!
# Convex rings

A ring is strictly convex when any three of its points, taken in its order, make a turn
the same way. A point is inside when it is on the inner side of all sides of the ring,
and outside when it is on the outer side of one. Ray casting knows nothing of sides of
lines; it counts.

Outside there is nothing left to count. The whole ring lies on the inner side of any of
its sides, so the point and the ring are on different sides of a line.

Inside, a ring that turns left is crossed just where it rises past the latitude of the
point. It does so somewhere: its highest corner is above the point and its lowest is not,
since at a corner level or higher than its neighbours a point to the left of both sides
is below. And it does so once. If it rose again there would be four points in its order,
above, not above, above and not above, which cannot be, since the diagonals of these four
meet. The ring is started after the side where it rises, so that the other rise, if there
were one, would lie between its first and last points.

A ring that turns right turns left backwards.
-/

namespace Graticule

/-! ## Rings that turn left -/

variable {p a b c d : Point Rat} {ring xs ys : List (Point Rat)}

/-- Any three points of the ring, in its order, make a turn to the left. -/
def TurnsLeft (ring : List (Point Rat)) : Prop :=
  ring.Triplewise fun a b c => 0 < turn a b c

theorem TurnsLeft.append_comm (h : TurnsLeft (xs ++ ys)) : TurnsLeft (ys ++ xs) := by
  obtain ⟨hxs, hys, hxy, hyx⟩ := List.triplewise_append.mp h
  refine List.triplewise_append.mpr ⟨hys, hxs, ?_, ?_⟩
  · intro c hc
    refine (hyx c hc).imp fun {a b} hturn => ?_
    rwa [← turn_rotate]
  · intro a ha
    refine (hxy a ha).imp fun {b c} hturn => ?_
    rwa [turn_rotate]

theorem TurnsLeft.sublist (h : TurnsLeft ring) (hsub : xs.Sublist ring) : TurnsLeft xs := by
  induction hsub with
  | slnil => exact h
  | cons v hsub ih => exact ih (List.triplewise_cons.mp h).2
  | cons_cons v hsub ih =>
      obtain ⟨hpairs, hrest⟩ := List.triplewise_cons.mp h
      exact .cons (hpairs.sublist hsub) (ih hrest)

theorem TurnsLeft.turn_pos (h : TurnsLeft ring) (hsub : [a, b, c].Sublist ring) :
    0 < turn a b c :=
  List.triplewise_triple.mp (h.sublist hsub)

/-- The diagonals of a quadrilateral that turns left meet, so if both ends of one are above a
point, an end of the other is. -/
theorem TurnsLeft.above_of_diagonal (h : TurnsLeft [a, b, c, d]) (ha : above p a = true)
    (hc : above p c = true) (hb : above p b = false) : above p d = true := by
  have htriples : 0 < turn a b c ∧ 0 < turn a b d ∧ 0 < turn a c d ∧ 0 < turn b c d := by
    simpa [TurnsLeft, List.triplewise_cons, and_assoc] using h
  obtain ⟨habc, habd, hacd, hbcd⟩ := htriples
  -- Where the diagonals meet, in two ways: between the first and third, and the other two.
  have hmeet : turn b c d * (a.latitude - p.latitude) + turn a b d * (c.latitude - p.latitude)
      = turn a c d * (b.latitude - p.latitude) + turn a b c * (d.latitude - p.latitude) := by
    unfold turn
    ring
  rw [above, decide_eq_true_eq] at ha hc ⊢
  rw [above, decide_eq_false_iff_not, not_lt] at hb
  have hpos : 0 < turn b c d * (a.latitude - p.latitude)
      + turn a b d * (c.latitude - p.latitude) :=
    add_pos (mul_pos hbcd (by linarith)) (mul_pos habd (by linarith))
  have hnonpos : turn a c d * (b.latitude - p.latitude) ≤ 0 :=
    mul_nonpos_of_nonneg_of_nonpos hacd.le (by linarith)
  have hlast : 0 < turn a b c * (d.latitude - p.latitude) := by linarith
  exact sub_pos.mp ((mul_pos_iff_of_pos_left habc).mp hlast)

/-! ## A point to the left of every side -/

/-- The point on the other side of the origin. -/
def opposite (v : Point Rat) : Point Rat := ⟨-v.longitude, -v.latitude, none⟩

theorem turn_opposite (a b c : Point Rat) :
    turn (opposite a) (opposite b) (opposite c) = turn a b c := by
  unfold turn opposite
  ring

/-- A corner no lower than its neighbours is above a point to the left of both its sides. -/
theorem lt_latitude_of_peak (hcorner : 0 < turn a b c) (hbefore : 0 < turn a b p)
    (hafter : 0 < turn b c p) (ha : a.latitude ≤ b.latitude) (hc : c.latitude ≤ b.latitude) :
    p.latitude < b.latitude := by
  have hheight : turn a b c * (b.latitude - p.latitude)
      = turn b c p * (b.latitude - a.latitude) + turn a b p * (b.latitude - c.latitude) := by
    unfold turn
    ring
  have hfall : 0 < turn b c p * (b.latitude - a.latitude)
      + turn a b p * (b.latitude - c.latitude) := by
    rcases ha.lt_or_eq with hlt | heq
    · exact add_pos_of_pos_of_nonneg (mul_pos hafter (by linarith))
        (mul_nonneg hbefore.le (by linarith))
    · -- With all three level there would be no corner.
      have hlt : c.latitude < b.latitude := by
        refine hc.lt_of_ne fun hlevel => ?_
        rw [turn, heq, hlevel] at hcorner
        linarith
      exact add_pos_of_nonneg_of_pos (mul_nonneg hafter.le (by linarith))
        (mul_pos hbefore (by linarith))
  rw [← hheight] at hfall
  exact sub_pos.mp ((mul_pos_iff_of_pos_left hcorner).mp hfall)

theorem latitude_lt_of_trough (hcorner : 0 < turn a b c) (hbefore : 0 < turn a b p)
    (hafter : 0 < turn b c p) (ha : b.latitude ≤ a.latitude) (hc : b.latitude ≤ c.latitude) :
    b.latitude < p.latitude := by
  rw [← turn_opposite] at hcorner hbefore hafter
  exact neg_lt_neg_iff.mp
    (lt_latitude_of_peak hcorner hbefore hafter (neg_le_neg ha) (neg_le_neg hc))

/-- A point is to the left of every side. -/
def LeftOfSides (p : Point Rat) (ring : List (Point Rat)) : Prop :=
  ∀ e ∈ sides ring, 0 < turn e.1 e.2 p

theorem LeftOfSides.append_comm (h : LeftOfSides p (xs ++ ys)) : LeftOfSides p (ys ++ xs) := by
  intro e he
  exact h e (mem_sides_append_comm he)

/-- Every point of the ring is a corner that the point is to the left of. -/
theorem exists_corner (hring : TurnsLeft ring) (hp : LeftOfSides p ring)
    (hlength : 3 ≤ ring.length) (hb : b ∈ ring) :
    ∃ a ∈ ring, ∃ c ∈ ring, 0 < turn a b c ∧ 0 < turn a b p ∧ 0 < turn b c p := by
  obtain ⟨xs, ys, a, c, inner, rfl, hrotation⟩ := exists_neighbours_of_mem hb hlength
  have hring' := hring.append_comm
  have hp' := hp.append_comm
  have hmem (v : Point Rat) (hv : v ∈ ys ++ xs) : v ∈ xs ++ ys :=
    (List.perm_append_comm.mem_iff).mp hv
  rw [hrotation] at hring' hp' hmem
  refine ⟨a, hmem a (by simp), c, hmem c (by simp), ?_, ?_, ?_⟩
  · rw [← turn_rotate]
    exact hring'.turn_pos (by simp)
  · exact hp' (a, b) (mem_legs_iff.mpr ⟨b :: c :: inner, [], by simp⟩)
  · exact hp' (b, c) (mem_legs_iff.mpr ⟨[], inner ++ [a, b], by simp⟩)

theorem exists_above (hring : TurnsLeft ring) (hp : LeftOfSides p ring)
    (hlength : 3 ≤ ring.length) : ∃ b ∈ ring, above p b = true := by
  have hne : ring ≠ [] := List.ne_nil_of_length_pos (by omega)
  obtain ⟨b, hb⟩ := Option.ne_none_iff_exists'.mp
    ((List.argmax_eq_none (f := Point.latitude)).not.mpr hne)
  have hmem : b ∈ ring := List.argmax_mem hb
  obtain ⟨a, ha, c, hc, hcorner, hbefore, hafter⟩ := exists_corner hring hp hlength hmem
  have hpeak := lt_latitude_of_peak hcorner hbefore hafter (List.le_of_mem_argmax ha hb)
    (List.le_of_mem_argmax hc hb)
  exact ⟨b, hmem, decide_eq_true hpeak⟩

theorem exists_not_above (hring : TurnsLeft ring) (hp : LeftOfSides p ring)
    (hlength : 3 ≤ ring.length) : ∃ b ∈ ring, above p b = false := by
  have hne : ring ≠ [] := List.ne_nil_of_length_pos (by omega)
  obtain ⟨b, hb⟩ := Option.ne_none_iff_exists'.mp
    ((List.argmin_eq_none (f := Point.latitude)).not.mpr hne)
  have hmem : b ∈ ring := List.argmin_mem hb
  obtain ⟨a, ha, c, hc, hcorner, hbefore, hafter⟩ := exists_corner hring hp hlength hmem
  have htrough := latitude_lt_of_trough hcorner hbefore hafter (List.le_of_mem_argmin ha hb)
    (List.le_of_mem_argmin hc hb)
  exact ⟨b, hmem, decide_eq_false htrough.not_gt⟩

/-- Going from one point to the next does not lead above another point: where the next
one is above it, so is the one before. -/
def NoRise (p v w : Point Rat) : Prop := above p w = true → above p v = true

instance (p : Point Rat) : Trans (NoRise p) (NoRise p) (NoRise p) where
  trans hvw hwx hx := hvw (hwx hx)

/-- A ring with points above and points not above has a side that rises. -/
theorem exists_rise (ha : a ∈ ring) (hb : b ∈ ring) (hlow : above p a = false)
    (hhigh : above p b = true) :
    ∃ c d, (c, d) ∈ sides ring ∧ above p c = false ∧ above p d = true := by
  by_contra hnone
  obtain ⟨first, rest, rfl⟩ := List.exists_cons_of_ne_nil (List.ne_nil_of_mem ha)
  have hchain : (first :: (rest ++ [first])).IsChain (NoRise p) := by
    refine List.isChain_iff_forall_rel_of_append_cons_cons.mpr ?_
    intro c d before after hsplit hd
    by_contra hc
    refine hnone ⟨c, d, mem_legs_iff.mpr ⟨before, after, ?_⟩, by simpa using hc, hd⟩
    simp [hsplit]
  -- From the first point to the one above, and from the one not above back to the first.
  have hpairs := List.isChain_iff_pairwise.mp hchain
  have hfirst : above p first = true := by
    rcases List.mem_cons.mp hb with rfl | hrest
    · exact hhigh
    · exact List.rel_of_pairwise_cons hpairs (List.mem_append_left _ hrest) hhigh
  rw [← List.cons_append, List.pairwise_append] at hpairs
  rw [hpairs.2.2 a ha first (by simp) hfirst] at hlow
  cases hlow

/-! ## Both sides of a convex ring -/

theorem walkParity_of_not_crossed {walk : List (Point Rat)}
    (h : ∀ e ∈ legs walk, crossesEdge p e = false) : walkParity p walk = false := by
  induction walk with
  | nil => rfl
  | cons v walk ih =>
      cases walk with
      | nil => rfl
      | cons w walk =>
          have hlegs : legs (v :: w :: walk) = (v, w) :: legs (w :: walk) := rfl
          rw [hlegs, List.forall_mem_cons] at h
          rw [walkParity, h.1, ih h.2, Bool.xor_self]

/-- From the end of a side that rises to its start, a ring that turns left does not rise
again. -/
theorem noRise_of_turnsLeft {inner : List (Point Rat)} (hring : TurnsLeft (b :: (inner ++ [a])))
    (hb : above p b = true) (ha : above p a = false) (hleg : (c, d) ∈ legs (b :: (inner ++ [a]))) :
    NoRise p c d := by
  intro hd
  by_contra hc
  have hlow : above p c = false := by simpa using hc
  -- The leg does not start at `b`, which is above, nor end at `a`, which is not.
  have hinner : [c, d] <:+: inner := by
    rcases List.infix_cons_iff.mp (mem_legs_iff.mp hleg) with hprefix | hinfix
    · obtain rfl := (List.cons_prefix_cons.mp hprefix).1
      exact absurd hb hc
    · rcases List.infix_concat_iff.mp hinfix with ⟨before, hsuffix⟩ | hinfix
      · have hlast : (before ++ [c]) ++ [d] = inner ++ [a] := by simpa using hsuffix
        obtain rfl := List.singleton_inj.mp (List.append_inj' hlast rfl).2
        rw [hd] at ha
        cases ha
      · exact hinfix
  have hsub : [b, c, d, a].Sublist (b :: (inner ++ [a])) :=
    (hinner.sublist.append (.refl [a])).cons_cons b
  rw [(hring.sublist hsub).above_of_diagonal hb hd hlow] at ha
  cases ha

theorem inRing_of_turnsLeft (hring : TurnsLeft ring) (hp : LeftOfSides p ring)
    (hlength : 3 ≤ ring.length) : inRing p ring = true := by
  obtain ⟨v, hv, hhigh⟩ := exists_above hring hp hlength
  obtain ⟨w, hw, hlow⟩ := exists_not_above hring hp hlength
  obtain ⟨a, b, hside, ha, hb⟩ := exists_rise hw hv hlow hhigh
  obtain ⟨xs, ys, inner, rfl, hrotation⟩ := exists_rotation_of_mem_sides hside (by omega)
  have hring' := hring.append_comm
  have hp' := hp.append_comm
  rw [inRing_append_comm]
  rw [hrotation] at hring' hp' ⊢
  have hrise : crossesEdge p (a, b) = true := by
    rw [crossesEdge_of_turn_pos (hp (a, b) hside), ha, hb]
    rfl
  have hothers : walkParity p (b :: (inner ++ [a])) = false := by
    refine walkParity_of_not_crossed ?_
    rintro ⟨c, d⟩ hleg
    rw [crossesEdge_of_turn_pos (hp' (c, d) (mem_sides_of_mem_legs hleg))]
    cases hd : above p d with
    | false => rw [Bool.and_false]
    | true =>
        rw [noRise_of_turnsLeft hring' hb ha hleg hd]
        rfl
  rw [inRing_cons, List.append_assoc, ← List.cons_append, List.singleton_append,
    walkParity_append, List.cons_append, hothers, walkParity_pair, hrise]
  rfl

theorem inRing_of_turn_neg (hring : TurnsLeft ring) (hlength : 3 ≤ ring.length)
    (hside : (a, b) ∈ sides ring) (hp : turn a b p < 0) : inRing p ring = false := by
  obtain ⟨xs, ys, inner, rfl, hrotation⟩ := exists_rotation_of_mem_sides hside (by omega)
  have hring' := hring.append_comm
  rw [inRing_append_comm]
  rw [hrotation] at hring' ⊢
  refine inRing_of_turn_nonneg (u := a) (v := b) ?_ hp
  intro w hw
  rw [List.mem_cons, List.mem_append, List.mem_singleton] at hw
  rcases hw with rfl | hw | rfl
  · exact (turn_stop a w).ge
  · have hsub : [b, w, a].Sublist (b :: (inner ++ [a])) :=
      ((List.singleton_sublist.mpr hw).append (.refl [a])).cons_cons b
    rw [← turn_rotate]
    exact (hring'.turn_pos hsub).le
  · exact (turn_start w b).ge

/-! ## Both ways around -/

/-- The way three points turn, 1 to the left and -1 to the right, and 0 if they are on one
line. -/
def orientation (a b c : Point Rat) : SignType := SignType.sign (turn a b c)

theorem orientation_swap (a b c : Point Rat) : orientation b a c = -orientation a b c := by
  rw [orientation, turn_swap, Left.sign_neg]
  rfl

theorem orientation_rotate (a b c : Point Rat) : orientation b c a = orientation a b c := by
  rw [orientation, turn_rotate]
  rfl

theorem inRing_append_head (p : Point Rat) (ring : List (Point Rat)) :
    inRing p (ring ++ ring.head?.toList) = inRing p ring := by
  cases ring with
  | nil => rfl
  | cons first rest => exact inRing_close p first rest

theorem inRing_of_orientation_one (hlength : 3 ≤ ring.length)
    (hring : ring.Triplewise fun a b c => orientation a b c = 1) (p : Point Rat) :
    ((∀ e ∈ sides ring, orientation e.1 e.2 p = 1) → inRing p ring = true)
      ∧ ((∃ e ∈ sides ring, orientation e.1 e.2 p = -1) → inRing p ring = false) := by
  have hleft : TurnsLeft ring := hring.imp sign_eq_one_iff.mp
  constructor
  · intro hp
    exact inRing_of_turnsLeft hleft (fun e he => sign_eq_one_iff.mp (hp e he)) hlength
  · rintro ⟨e, he, hp⟩
    exact inRing_of_turn_neg hleft hlength he (sign_eq_neg_one_iff.mp hp)

/-- Backwards around, a ring that turns right turns left. -/
theorem inRing_of_orientation_neg_one (hlength : 3 ≤ ring.length)
    (hring : ring.Triplewise fun a b c => orientation a b c = -1) (p : Point Rat) :
    ((∀ e ∈ sides ring, orientation e.1 e.2 p = -1) → inRing p ring = true)
      ∧ ((∃ e ∈ sides ring, orientation e.1 e.2 p = 1) → inRing p ring = false) := by
  have hreverse : ring.reverse.Triplewise fun a b c => orientation a b c = 1 := by
    refine List.triplewise_reverse.mpr (hring.imp fun {a b c} hturn => ?_)
    rw [← orientation_rotate, orientation_swap, hturn]
    rfl
  obtain ⟨hin, hout⟩ := inRing_of_orientation_one (by simpa using hlength) hreverse p
  rw [inRing_reverse] at hin hout
  constructor
  · intro hp
    apply hin
    rintro ⟨a, b⟩ hside
    rw [orientation_swap, hp (b, a) (mem_sides_reverse hside)]
    rfl
  · rintro ⟨⟨a, b⟩, hside, hp⟩
    refine hout ⟨(b, a), mem_sides_reverse (by rwa [List.reverse_reverse]), ?_⟩
    rw [orientation_swap, hp]

/-- Of a strictly convex ring, closed or not and whichever way it goes around, a point is
in the ring if it is on the inner side of every side of the ring, and not if it is on the
outer side of one. -/
theorem inRing_of_convex {side : SignType} (hside : side ≠ 0) (hlength : 3 ≤ ring.length)
    (hconvex : ring.Triplewise fun a b c => orientation a b c = side) (p : Point Rat) :
    ((∀ e ∈ sides ring, orientation e.1 e.2 p = side) →
        inRing p ring = true ∧ inRing p (ring ++ ring.head?.toList) = true)
      ∧ ((∃ e ∈ sides ring, orientation e.1 e.2 p = -side) →
        inRing p ring = false ∧ inRing p (ring ++ ring.head?.toList) = false) := by
  have hboth : ((∀ e ∈ sides ring, orientation e.1 e.2 p = side) → inRing p ring = true)
      ∧ ((∃ e ∈ sides ring, orientation e.1 e.2 p = -side) → inRing p ring = false) := by
    cases side with
    | zero => exact absurd rfl hside
    | pos => exact inRing_of_orientation_one hlength hconvex p
    | neg => exact inRing_of_orientation_neg_one hlength hconvex p
  rw [inRing_append_head]
  exact ⟨fun hp => ⟨hboth.1 hp, hboth.1 hp⟩, fun hp => ⟨hboth.2 hp, hboth.2 hp⟩⟩

/-- A kite that goes around clockwise, and two points level with two of its corners: one
between them and one to their west, whose ray meets both. -/
theorem inRing_of_convex_of_kite :
    let kite : List (Point Rat) := [⟨0, 2, none⟩, ⟨2, 0, none⟩, ⟨0, -2, none⟩, ⟨-2, 0, none⟩]
    (-1 : SignType) ≠ 0 ∧ 3 ≤ kite.length
      ∧ (kite.Triplewise fun a b c => orientation a b c = -1)
      ∧ (∀ e ∈ sides kite, orientation e.1 e.2 ⟨0, 0, none⟩ = -1)
      ∧ inRing ⟨0, 0, none⟩ (kite ++ kite.head?.toList) = true
      ∧ (∃ e ∈ sides kite, orientation e.1 e.2 ⟨-3, 0, none⟩ = 1)
      ∧ inRing ⟨-3, 0, none⟩ (kite ++ kite.head?.toList) = false := by
  intro kite
  have hconvex : kite.Triplewise fun a b c => orientation a b c = -1 :=
    .cons (by decide +kernel) (.cons (by decide +kernel) (List.triplewise_pair _ _ _))
  have hinner : ∀ e ∈ sides kite, orientation e.1 e.2 ⟨0, 0, none⟩ = -1 := by decide +kernel
  have houter : ∃ e ∈ sides kite, orientation e.1 e.2 ⟨-3, 0, none⟩ = 1 := by decide +kernel
  have hkite := inRing_of_convex (by decide) (by decide) hconvex
  exact ⟨by decide, by decide, hconvex, hinner, ((hkite _).1 hinner).2, houter,
    ((hkite _).2 houter).2⟩

end Graticule
