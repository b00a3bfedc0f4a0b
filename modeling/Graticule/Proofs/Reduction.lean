import Graticule.Simplify
import Mathlib.Data.List.Infix

/-!
# What a reduction keeps

Nothing in the search of a reduction depends on what a point is: it only asks
for deviations. So everything here is said of points of any type. Two things
come of that. The list of sections is shown to be the recursion, once and for
all deviations; and a reduction of points is the image of the reduction of any
list that maps onto them, which is how a point kept is traced back to where it
stood.

What both passes guarantee has one form. `Keeps P` relates the inner points of
a section to those kept of them, and says that every dropped point satisfies
`P` with the two kept points around it. Dividing establishes it with the
deviation within the limit, the coarser pass with the gap to the earlier kept
point within the limit, and the two compose.
-/

namespace Graticule.Simplify

variable {α β γ : Type} [LT α] [DecidableLT α]

/-! ## The search -/

theorem farthest_some_ne_none (measure : β → α) (most : α) (c : Cut β)
    (passed ahead : List β) : farthest measure most (some c) passed ahead ≠ none := by
  induction ahead generalizing most c passed with
  | nil => exact Option.some_ne_none c
  | cons p rest ih =>
      rw [farthest]
      split
      · exact ih _ _ _
      · exact ih _ _ _

theorem farthest_none_eq_none_iff (measure : β → α) (most : α)
    (passed ahead : List β) :
    farthest measure most none passed ahead = none
      ↔ ∀ p ∈ ahead, ¬ most < measure p := by
  induction ahead generalizing passed with
  | nil => simp [farthest]
  | cons p rest ih =>
      rw [farthest, List.forall_mem_cons]
      split
      · next hlt =>
          have hne := farthest_some_ne_none measure (measure p) ⟨passed, p, rest⟩
            (p :: passed) rest
          exact iff_of_false hne fun h => h.1 hlt
      · next hlt => rw [ih, and_iff_right hlt]

theorem cut?_eq_none_iff {measure : β → α} {limit : α} {points : List β} :
    cut? measure limit points = none ↔ ∀ p ∈ points, ¬ limit < measure p := by
  rw [cut?, Option.map_eq_none_iff, farthest_none_eq_none_iff]

/-- The cut at the image of every point. -/
def Cut.map (f : β → γ) (c : Cut β) : Cut γ :=
  ⟨c.before.map f, f c.pivot, c.after.map f⟩

theorem farthest_map (f : β → γ) (measure : γ → α) (most : α)
    (best : Option (Cut β)) (passed ahead : List β) :
    farthest measure most (best.map (Cut.map f)) (passed.map f) (ahead.map f)
      = (farthest (fun p => measure (f p)) most best passed ahead).map (Cut.map f) := by
  induction ahead generalizing most best passed with
  | nil => rfl
  | cons p rest ih =>
      rw [List.map_cons, farthest, farthest]
      split
      · exact ih _ (some ⟨passed, p, rest⟩) (p :: passed)
      · exact ih _ best (p :: passed)

theorem cut?_map (f : β → γ) (measure : γ → α) (limit : α) (points : List β) :
    cut? measure limit (points.map f)
      = (cut? (fun p => measure (f p)) limit points).map (Cut.map f) := by
  have h := farthest_map f measure limit none [] points
  rw [Option.map_none, List.map_nil] at h
  rw [cut?, cut?, h, Option.map_map, Option.map_map]
  congr 1
  funext c
  simp [Cut.map]

theorem divide_of_none {deviation : β → β → β → α} {limit : α} {start stop : β}
    {inner : List β} (h : cut? (deviation · start stop) limit inner = none) :
    divide deviation limit start inner stop = [] := by
  rw [divide, h]

theorem divide_of_some {deviation : β → β → β → α} {limit : α} {start stop : β}
    {inner : List β} {c : Cut β}
    (h : cut? (deviation · start stop) limit inner = some c) :
    divide deviation limit start inner stop
      = divide deviation limit start c.before c.pivot
        ++ c.pivot :: divide deviation limit c.pivot c.after stop := by
  rw [divide, h]

theorem divide_map (f : β → γ) (deviation : γ → γ → γ → α) (limit : α) (start : β)
    (inner : List β) (stop : β) :
    divide deviation limit (f start) (inner.map f) (f stop)
      = (divide (fun p a b => deviation (f p) (f a) (f b)) limit start inner stop).map f := by
  fun_induction divide (fun p a b => deviation (f p) (f a) (f b)) limit start inner stop with
  | case1 start inner stop hnone =>
      refine divide_of_none ?_
      rw [cut?_map f (deviation · (f start) (f stop)), hnone]
      rfl
  | case2 start inner stop c hsome ihbefore ihafter =>
      have hcut : cut? (deviation · (f start) (f stop)) limit (inner.map f)
          = some (c.map f) := by
        rw [cut?_map f (deviation · (f start) (f stop)), hsome]
        rfl
      rw [divide_of_some hcut]
      simp only [Cut.map, ihbefore, ihafter, List.map_append, List.map_cons]

/-! ## The list of sections -/

/-- What is kept in sections that start at a kept point, by recursion: the
points inside each, and the one at its end. -/
def divideAll (deviation : β → β → β → α) (limit : α) (start : β) :
    (sections : List (Section β)) → List β
  | [] => []
  | s :: rest =>
    divide deviation limit start s.inner s.stop
      ++ s.stop :: divideAll deviation limit s.stop rest

/-- Working off a list of sections keeps what the recursion keeps. -/
theorem workOff_eq (deviation : β → β → β → α) (limit : α) (kept : List β)
    (start : β) (sections : List (Section β)) :
    workOff deviation limit kept start sections
      = (divideAll deviation limit start sections).reverse ++ kept := by
  fun_induction workOff deviation limit kept start sections with
  | case1 => rfl
  | case2 kept start s rest hnone ih =>
      rw [ih, divideAll, divide_of_none hnone]
      simp
  | case3 kept start s rest c hsome ih =>
      rw [ih, divideAll, divideAll, divideAll, divide_of_some hsome]
      simp

/-! ## A line by its ends -/

theorem exists_ends {points : List β} (h : 2 ≤ points.length) :
    ∃ first inner last, points = first :: (inner ++ [last]) := by
  match points, h with
  | first :: next :: rest, _ =>
      exact ⟨first, (next :: rest).dropLast, (next :: rest).getLast (by simp),
        by rw [List.dropLast_append_getLast]⟩

theorem reduce_ends (deviation : β → β → β → α) (limit : α) (first : β)
    (inner : List β) (last : β) :
    reduce deviation limit (first :: (inner ++ [last]))
      = first :: (divide deviation limit first inner last ++ [last]) := by
  have hlast (next : β) (rest : List β) (h : next :: rest = inner ++ [last]) :
      rest.getLastD next = last := by
    rw [← List.getLastD_cons (a := last), h, List.getLastD_concat]
  cases h : inner ++ [last] with
  | nil => exact absurd h (by simp)
  | cons next rest =>
      rw [reduce, hlast next rest h.symm, ← h, List.dropLast_concat, workOff_eq]
      simp [divideAll]

/-- The inner points the coarser pass keeps, by recursion. -/
def spread (gap : β → β → α) (limit : α) (previous : β) : List β → List β
  | [] => []
  | p :: rest =>
    if limit < gap p previous then p :: spread gap limit p rest
    else spread gap limit previous rest

theorem passOver_append (gap : β → β → α) (limit : α) (kept : List β)
    (previous : β) (inner : List β) (last : β) :
    passOver gap limit kept previous (inner ++ [last])
      = last :: ((spread gap limit previous inner).reverse ++ kept) := by
  induction inner generalizing kept previous with
  | nil => rfl
  | cons p rest ih =>
      obtain ⟨q, tail, hq⟩ : ∃ q tail, rest ++ [last] = q :: tail :=
        List.exists_cons_of_ne_nil (by simp)
      rw [List.cons_append, hq, passOver, ← hq, spread]
      · split
        · rw [ih]
          simp
        · rw [ih]
      · exact List.cons_ne_nil q tail

theorem thin_ends (gap : β → β → α) (limit : α) (first : β) (inner : List β)
    (last : β) :
    thin gap limit (first :: (inner ++ [last]))
      = first :: (spread gap limit first inner ++ [last]) := by
  rw [thin, passOver_append]
  simp

theorem spread_map (f : β → γ) (gap : γ → γ → α) (limit : α) (previous : β)
    (inner : List β) :
    spread gap limit (f previous) (inner.map f)
      = (spread (fun p q => gap (f p) (f q)) limit previous inner).map f := by
  induction inner generalizing previous with
  | nil => rfl
  | cons p rest ih =>
      rw [List.map_cons, spread, spread]
      split
      · rw [ih, List.map_cons]
      · exact ih previous

theorem thin_map (f : β → γ) (gap : γ → γ → α) (limit : α) {points : List β}
    (h : 2 ≤ points.length) :
    thin gap limit (points.map f) = (thin (fun p q => gap (f p) (f q)) limit points).map f := by
  obtain ⟨first, inner, last, rfl⟩ := exists_ends h
  rw [List.map_cons, List.map_append, List.map_singleton, thin_ends, thin_ends, spread_map]
  simp

/-! ## Both passes -/

/-- The coarser pass, where it is asked for, and the reduction after it. -/
def passes (gap : β → β → α) (deviation : β → β → β → α) (limit : α)
    (highQuality : Bool) (points : List β) : List β :=
  reduce deviation limit (if highQuality then points else thin gap limit points)

/-- The inner points both passes keep. -/
def inside (gap : β → β → α) (deviation : β → β → β → α) (limit : α)
    (highQuality : Bool) (first : β) (inner : List β) (last : β) : List β :=
  divide deviation limit first
    (if highQuality then inner else spread gap limit first inner) last

theorem passes_ends (gap : β → β → α) (deviation : β → β → β → α) (limit : α)
    (highQuality : Bool) (first : β) (inner : List β) (last : β) :
    passes gap deviation limit highQuality (first :: (inner ++ [last]))
      = first :: (inside gap deviation limit highQuality first inner last ++ [last]) := by
  cases highQuality with
  | false => simp only [passes, inside, Bool.false_eq_true, if_false, thin_ends, reduce_ends]
  | true => simp only [passes, inside, if_true, reduce_ends]

/-- The points kept are the images of the points kept in any list that maps
onto the line. -/
theorem passes_map (f : β → γ) (gap : γ → γ → α) (deviation : γ → γ → γ → α)
    (limit : α) (highQuality : Bool) {points : List β} (h : 2 ≤ points.length) :
    passes gap deviation limit highQuality (points.map f)
      = (passes (fun p q => gap (f p) (f q)) (fun p a b => deviation (f p) (f a) (f b))
          limit highQuality points).map f := by
  obtain ⟨first, inner, last, rfl⟩ := exists_ends h
  rw [List.map_cons, List.map_append, List.map_singleton, passes_ends, passes_ends]
  cases highQuality with
  | false =>
      simp [inside, spread_map, divide_map]
  | true =>
      simp [inside, divide_map]

/-! ## Where kept points stand -/

theorem pairwise_zipIdx (points : List β) :
    points.zipIdx.Pairwise fun p q => p.2 < q.2 := by
  rw [← List.pairwise_map, List.zipIdx_map_snd]
  exact List.pairwise_lt_range'

theorem getElem?_of_mem_zipIdx {points : List β} {q : β × Nat}
    (h : q ∈ points.zipIdx) : points[q.2]? = some q.1 :=
  List.mem_zipIdx_iff_getElem?.mp h

/-- The numbers of kept points ascend, and lead to the points. -/
theorem positions_of_sublist {points : List β} {kept : List (β × Nat)}
    (h : kept.Sublist points.zipIdx) :
    (kept.map Prod.snd).Pairwise (· < ·)
      ∧ (kept.map Prod.snd).map (points[·]?) = (kept.map Prod.fst).map some := by
  refine ⟨List.pairwise_map.mpr ((pairwise_zipIdx points).sublist h), ?_⟩
  rw [List.map_map, List.map_map]
  exact List.map_congr_left fun q hq => getElem?_of_mem_zipIdx (h.subset hq)

/-! ## What is dropped is close to what is kept -/

/-- The points kept of the inner points of a section that starts at one point
and stops at another: every dropped point satisfies `P` with the two kept
points, or ends of the section, that are around it. -/
inductive Keeps (P : β → β → β → Prop) (stop : β) : β → List β → List β → Prop where
  /-- No inner point is kept. -/
  | none {start : β} {inner : List β} (hdropped : ∀ p ∈ inner, P p start stop) :
      Keeps P stop start inner []
  /-- The first inner point kept comes after some that are dropped. -/
  | some {start : β} {dropped : List β} {next : β} {inner kept : List β}
      (hdropped : ∀ p ∈ dropped, P p start next) (hrest : Keeps P stop next inner kept) :
      Keeps P stop start (dropped ++ next :: inner) (next :: kept)

namespace Keeps

variable {P Q R : β → β → β → Prop} {start middle stop : β}

theorem append {xs ys ks ls : List β} (hxs : Keeps P middle start xs ks)
    (hys : Keeps P stop middle ys ls) :
    Keeps P stop start (xs ++ middle :: ys) (ks ++ middle :: ls) := by
  induction hxs with
  | none hdropped => exact .some hdropped hys
  | some hdropped _ ih =>
      rw [List.append_assoc]
      exact .some hdropped ih

theorem split {xs ks ls : List β} (h : Keeps P stop start xs (ks ++ middle :: ls)) :
    ∃ before after, xs = before ++ middle :: after
      ∧ Keeps P middle start before ks ∧ Keeps P stop middle after ls := by
  induction ks generalizing start xs with
  | nil =>
      cases h with
      | some hdropped hrest => exact ⟨_, _, rfl, .none hdropped, hrest⟩
  | cons k ks ih =>
      cases h with
      | @some _ dropped _ inner _ hdropped hrest =>
          obtain ⟨before, after, rfl, hbefore, hafter⟩ := ih hrest
          exact ⟨dropped ++ k :: before, after, by simp, .some hdropped hbefore, hafter⟩

/-- One more dropped point after the start, if it satisfies the relation with
the start whatever comes next. -/
theorem cons_dropped {p : β} {inner kept : List β} (hp : ∀ next, P p start next)
    (h : Keeps P stop start inner kept) : Keeps P stop start (p :: inner) kept := by
  cases h with
  | none hdropped => exact .none (List.forall_mem_cons.mpr ⟨hp stop, hdropped⟩)
  | @some _ dropped next inner _ hdropped hrest =>
      rw [← List.cons_append]
      exact .some (List.forall_mem_cons.mpr ⟨hp next, hdropped⟩) hrest

theorem mono {inner kept : List β} (h : Keeps P stop start inner kept)
    (himp : ∀ p a b, P p a b → Q p a b) : Keeps Q stop start inner kept := by
  induction h with
  | none hdropped => exact .none fun p hp => himp _ _ _ (hdropped p hp)
  | some hdropped _ ih => exact .some (fun p hp => himp _ _ _ (hdropped p hp)) ih

theorem sublist {inner kept : List β} (h : Keeps P stop start inner kept) :
    kept.Sublist inner := by
  induction h with
  | none => exact List.nil_sublist _
  | some _ _ ih => exact (ih.cons_cons _).trans (List.sublist_append_right ..)

/-- Every inner point is kept, or satisfies the relation with the start and the
stop of the section it is in. -/
theorem mem_or {inner kept : List β} (h : Keeps P stop start inner kept) :
    ∀ p ∈ inner, p ∈ kept ∨ ∃ k ∈ start :: kept, ∃ next, P p k next := by
  induction h with
  | none hdropped =>
      intro p hp
      exact Or.inr ⟨_, List.mem_cons_self, _, hdropped p hp⟩
  | @some start dropped next inner kept hdropped _ ih =>
      intro p hp
      rcases List.mem_append.mp hp with hp | hp
      · exact Or.inr ⟨start, List.mem_cons_self, next, hdropped p hp⟩
      · rcases List.mem_cons.mp hp with rfl | hp
        · exact Or.inl List.mem_cons_self
        · rcases ih p hp with hk | ⟨k, hk, next', hP⟩
          · exact Or.inl (List.mem_cons_of_mem _ hk)
          · exact Or.inr ⟨k, List.mem_cons_of_mem _ hk, next', hP⟩

/-! A pass over what a pass has kept. A point dropped by the first is judged by
the kept point before it, which the second pass may drop in its turn. -/

section

variable (first : ∀ p a b next, P p a next → R p a b) (second : ∀ p a b, Q p a b → R p a b)
  (both : ∀ p k next a b, P p k next → Q k a b → R p a b)

include first second both

theorem comp_none {inner middles : List β} (hP : Keeps P stop start inner middles)
    (hQ : ∀ k ∈ middles, Q k start stop) : ∀ p ∈ inner, R p start stop := by
  intro p hp
  rcases hP.mem_or p hp with hk | ⟨k, hk, next, hpk⟩
  · exact second p _ _ (hQ p hk)
  · rcases List.mem_cons.mp hk with rfl | hk
    · exact first p _ _ next hpk
    · exact both p k next _ _ hpk (hQ k hk)

theorem comp {inner middles kept : List β} (hP : Keeps P stop start inner middles)
    (hQ : Keeps Q stop start middles kept) : Keeps R stop start inner kept := by
  -- Each point the second pass keeps was kept by the first, and splits it there.
  induction hQ generalizing inner with
  | none hdropped => exact .none (comp_none first second both hP hdropped)
  | some hdropped _ ih =>
      obtain ⟨before, after, rfl, hbefore, hafter⟩ := hP.split
      exact .some (comp_none first second both hbefore hdropped) (ih hafter)

end

/-- Every point of the section lies between two neighbours among the points
kept, in the order `r` of the points, and satisfies `P` with them. -/
theorem exists_neighbours {r : β → β → Prop} {inner kept : List β}
    (h : Keeps P stop start inner kept) (hstart : ∀ a b, P a a b) (hstop : ∀ a b, P b a b)
    (hr : (start :: (inner ++ [stop])).Pairwise r) :
    ∀ p ∈ start :: (inner ++ [stop]), ∃ a b, [a, b] <:+: start :: (kept ++ [stop])
      ∧ (a = p ∨ r a p) ∧ (p = b ∨ r p b) ∧ P p a b := by
  induction h with
  | @none start inner hdropped =>
      intro p hp
      refine ⟨start, stop, List.infix_rfl, ?_⟩
      rcases List.mem_cons.mp hp with rfl | hmem
      · exact ⟨.inl rfl, .inr (List.rel_of_pairwise_cons hr (by simp)), hstart _ _⟩
      · have hap := List.rel_of_pairwise_cons hr hmem
        rcases List.mem_append.mp hmem with hinner | hlast
        · have hpb := (List.pairwise_append.mp (List.pairwise_cons.mp hr).2).2.2 p hinner
            stop (by simp)
          exact ⟨.inr hap, .inr hpb, hdropped p hinner⟩
        · cases List.mem_singleton.mp hlast
          exact ⟨.inr hap, .inl rfl, hstop _ _⟩
  | @some start dropped next inner kept hdropped _ ih =>
      intro p hp
      rw [List.append_assoc, List.cons_append] at hp hr
      have hpair := List.pairwise_append.mp (List.pairwise_cons.mp hr).2
      have hhead : [start, next] <:+: start :: (next :: kept ++ [stop]) :=
        ⟨[], kept ++ [stop], rfl⟩
      rcases List.mem_cons.mp hp with rfl | hmem
      · exact ⟨_, _, hhead, .inl rfl, .inr (List.rel_of_pairwise_cons hr (by simp)),
          hstart _ _⟩
      · rcases List.mem_append.mp hmem with hdrop | hrest
        · exact ⟨_, _, hhead, .inr (List.rel_of_pairwise_cons hr hmem),
            .inr (hpair.2.2 p hdrop next (by simp)), hdropped p hdrop⟩
        · obtain ⟨a, b, hab, hbetween⟩ := ih hpair.2.1 p hrest
          exact ⟨a, b, List.infix_cons hab, hbetween⟩

end Keeps

/-- Dividing drops only points that deviate within the limit from the segment
between the two points kept around them. -/
theorem divide_keeps (deviation : β → β → β → α) (limit : α) (start : β)
    (inner : List β) (stop : β) :
    Keeps (fun p a b => ¬ limit < deviation p a b) stop start inner
      (divide deviation limit start inner stop) := by
  fun_induction divide deviation limit start inner stop with
  | case1 start inner stop hnone => exact .none (cut?_eq_none_iff.mp hnone)
  | case2 start inner stop c hsome ihbefore ihafter =>
      rw [← append_of_cut?_eq_some hsome]
      exact ihbefore.append ihafter

/-- The coarser pass drops only points within the limit of the point kept
before them. -/
theorem spread_keeps (gap : β → β → α) (limit : α) (previous : β) (inner : List β)
    (stop : β) :
    Keeps (fun p a _ => ¬ limit < gap p a) stop previous inner
      (spread gap limit previous inner) := by
  induction inner generalizing previous with
  | nil => exact .none (by simp)
  | cons p rest ih =>
      rw [spread]
      split
      · rw [← List.nil_append (p :: rest)]
        exact .some (by simp) (ih p)
      · next hgap => exact (ih previous).cons_dropped fun _ => hgap

/-! ## Whole lines -/

theorem passes_of_length_lt (gap : β → β → α) (deviation : β → β → β → α) (limit : α)
    (highQuality : Bool) {points : List β} (h : points.length < 2) :
    passes gap deviation limit highQuality points = points := by
  match points, h with
  | [], _ => cases highQuality <;> rfl
  | [p], _ => cases highQuality <;> rfl

theorem passes_sublist (gap : β → β → α) (deviation : β → β → β → α) (limit : α)
    (highQuality : Bool) (points : List β) :
    (passes gap deviation limit highQuality points).Sublist points := by
  by_cases h : points.length < 2
  · rw [passes_of_length_lt gap deviation limit highQuality h]
  · obtain ⟨first, inner, last, rfl⟩ := exists_ends (Nat.le_of_not_lt h)
    have hinside : (inside gap deviation limit highQuality first inner last).Sublist inner := by
      cases highQuality with
      | true => exact (divide_keeps ..).sublist
      | false =>
          exact (divide_keeps ..).sublist.trans (spread_keeps gap limit first inner last).sublist
    rw [passes_ends]
    exact (hinside.append_right [last]).cons_cons first

end Graticule.Simplify
