import Graticule.Proofs.Milestones
import Mathlib.Tactic.SplitIfs

/-!
# How many points a slice has

A slice is cut with lengths that are taken as they are. They may not be numbers,
and they may lead backwards, so what a slice collects is a matter of its milestones
alone. It takes the point at its start when it meets a milestone past the start, and
then the vertex there, or its stop; from then on it has two points. Short of that it
takes only vertices that stand exactly at the start.

The stop adds a point of its own, but never decides the matter: the stop is past the
start if both are numbers, so a milestone that reaches the stop is past the start. A
start that is not a number is never reached or passed, and then the stop is all a
slice can have.
-/

namespace Graticule

open OrderedScalar

variable {α : Type}

/-- Milestones with which a slice comes to have two points: one of them is past its
start, or two of them are at it. -/
def PassesStart [Scalar α] (start : α) (milestones : List α) : Prop :=
  (∃ d ∈ milestones, start < d) ∨ 2 ≤ milestones.countP (start ≤ ·)

variable [Trig α] {start stop travelled : α} {unit : LengthUnit} {previous : Option (Point α)}
  {here : Point α} {taken : List (Point α)}

/-! ## Accepted distances -/

/-- A slice is refused for its distances, or it is cut. -/
theorem sliceWith_cases (points : List (Point α)) (start stop : α)
    (segments : SegmentLengths α) :
    (∃ e, sliceWith points start stop segments = .error e ∧ e ≠ .noSuchVertex)
      ∨ 2 ≤ points.length ∧ segments.lengths.length = points.length - 1
        ∧ ¬ (start == stop) = true ∧ ¬ start < 0 ∧ ¬ stop < 0 ∧ ¬ stop < start
        ∧ ¬ segments.total ≤ start
        ∧ sliceWith points start stop segments
          = (fun taken => ⟨taken, none⟩)
            <$> cut start stop segments.unit [] 0 none points segments.lengths := by
  generalize hrun : sliceWith points start stop segments = run
  rw [sliceWith_eq] at hrun
  split_ifs at hrun with hlength hcount hequal hstart hstop hreversed hbeyond
  case neg =>
    exact .inr ⟨by omega, Decidable.not_not.mp hcount, hequal, hstart, hstop, hreversed, hbeyond,
      hrun.symm⟩
  all_goals exact .inl ⟨_, hrun.symm, nofun⟩

/-! ## A slice that has something -/

theorem cut_end {lengths : List α} (hbegun : ¬ (start < travelled ∧ taken.isEmpty = true))
    (h : ¬ stop ≤ travelled) :
    cut start stop unit taken travelled previous [here] lengths
      = .ok (if start ≤ travelled then here :: taken else taken).reverse := by
  rw [cut, if_neg hbegun]
  simp only [pure_bind, if_neg h]
  rfl

/-- From then on it takes every vertex at the start or past it, until the stop. -/
theorem length_cut_begun (travelled : α) (v here : Point α) (rest : List (Point α))
    {lengths : List α} (hcount : lengths.length = rest.length) (htaken : taken ≠ [])
    (hstop : ∀ d, stop ≤ d → start ≤ d) :
    ∃ out, cut start stop unit taken travelled (some v) (here :: rest) lengths = .ok out
      ∧ (2 ≤ out.length
        ↔ 2 ≤ taken.length + (lengths.scanl (· + ·) travelled).countP (start ≤ ·)) := by
  have hpos : 0 < taken.length := List.length_pos_iff.mpr htaken
  induction rest generalizing here travelled v taken lengths with
  | nil =>
      obtain rfl := List.length_eq_zero_iff.mp hcount
      have hbegun : ¬ (start < travelled ∧ taken.isEmpty = true) := by simp [htaken]
      by_cases hle : stop ≤ travelled
      · obtain ⟨q, hq⟩ := exists_arrive stop travelled unit v here
        refine ⟨_, cut_arrive hbegun hle hq, ?_⟩
        simp [hstop travelled hle]
      · refine ⟨_, cut_end hbegun hle, ?_⟩
        by_cases hstart : start ≤ travelled
        · simp [hstart]
        · simp [hstart]
  | cons next rest ih =>
      obtain ⟨d, lengths, rfl⟩ := List.exists_cons_of_length_eq_add_one hcount
      have hlength : lengths.length = rest.length := by simpa using hcount
      have hbegun : ¬ (start < travelled ∧ taken.isEmpty = true) := by simp [htaken]
      rw [List.scanl_cons, List.countP_cons]
      by_cases hle : stop ≤ travelled
      · obtain ⟨q, hq⟩ := exists_arrive stop travelled unit v here
        refine ⟨_, cut_arrive hbegun hle hq, ?_⟩
        have hreached : start ≤ travelled := hstop travelled hle
        simp only [List.length_append, List.length_reverse, List.length_singleton, hreached,
          decide_true, if_true]
        omega
      · rw [cut_cons hbegun hle]
        by_cases hstart : start ≤ travelled
        · rw [if_pos hstart]
          -- The vertex is one more taken, and its milestone one less to come.
          obtain ⟨out, hcut, hout⟩ := ih (travelled + d) here next hlength
            (List.cons_ne_nil here taken) (by simp)
          refine ⟨out, hcut, hout.trans ?_⟩
          simp only [List.length_cons, hstart, decide_true, if_true]
          omega
        · rw [if_neg hstart]
          obtain ⟨out, hcut, hout⟩ := ih (travelled + d) here next hlength htaken hpos
          refine ⟨out, hcut, hout.trans ?_⟩
          simp [hstart]

/-! ## A slice that has nothing yet -/

theorem passesStart_of_lt (lengths : List α) (h : start < travelled) :
    PassesStart start (lengths.scanl (· + ·) travelled) :=
  .inl ⟨travelled, mem_scanl_first travelled lengths, h⟩

theorem not_passesStart_singleton (h : ¬ start < travelled) : ¬ PassesStart start [travelled] := by
  rintro (⟨d, hd, hlt⟩ | hcount)
  · rw [List.mem_singleton.mp hd] at hlt
    exact h hlt
  · have hone := List.countP_le_length (p := (start ≤ ·)) (l := [travelled])
    rw [List.length_singleton] at hone
    omega

variable [OrderedScalar α]

theorem countP_pos_of_lt {ds : List α} (h : ∃ d ∈ ds, start < d) :
    0 < ds.countP (start ≤ ·) := by
  obtain ⟨d, hd, hlt⟩ := h
  exact List.countP_pos_iff.mpr ⟨d, hd, decide_eq_true (le_of_lt hlt)⟩

theorem not_passesStart_of_not_number {ds : List α} (h : ¬ start ≤ start) :
    ¬ PassesStart start ds := by
  rintro (⟨d, -, hlt⟩ | hcount)
  · exact h (le_refl_left (le_of_lt hlt))
  · have hzero : ds.countP (start ≤ ·) = 0 := by
      rw [List.countP_eq_zero]
      intro d _ hle
      exact h (le_refl_left (of_decide_eq_true hle))
    omega

/-- A milestone short of the start, or at it, counts only as one of two. -/
theorem passesStart_cons {ds : List α} (h : ¬ start < travelled) :
    PassesStart start (travelled :: ds)
      ↔ if start ≤ travelled then 2 ≤ 1 + ds.countP (start ≤ ·) else PassesStart start ds := by
  unfold PassesStart
  rw [List.countP_cons]
  simp only [List.mem_cons, exists_eq_or_imp, h, false_or]
  by_cases hle : start ≤ travelled
  · simp only [hle, decide_true, if_true]
    constructor
    · rintro (hlt | hcount)
      · have hpos := countP_pos_of_lt hlt
        omega
      · omega
    · intro hcount
      exact .inr (by omega)
  · simp [hle]

/-- Past its start a slice takes the point there, and then it has two. -/
theorem length_cut_past (v here : Point α) (rest : List (Point α)) {lengths : List α}
    (hcount : lengths.length = rest.length) (hpast : start < travelled)
    (hstop : ∀ d, stop ≤ d → start ≤ d) :
    ∃ out, cut start stop unit [] travelled (some v) (here :: rest) lengths = .ok out
      ∧ 2 ≤ out.length := by
  obtain ⟨out, hcut, hout⟩ := length_cut_begun travelled v here rest hcount
    (List.cons_ne_nil (offsetFrom v here (start - travelled) unit) []) hstop
  refine ⟨out, (cut_begin lengths hpast).trans hcut, hout.mpr ?_⟩
  have hpos := countP_pos_of_lt ⟨travelled, mem_scanl_first travelled lengths, hpast⟩
  rw [List.length_singleton]
  omega

/-- What happens at a vertex that is past the start, or where the stop is reached. -/
theorem length_cut_decided (rest : List (Point α)) {lengths : List α}
    (hcount : lengths.length = rest.length)
    (hfirst : previous = none →
      ¬ start < travelled ∧ (stop ≤ travelled → (stop - travelled == 0) = true))
    (hstop : start ≤ start → ∀ d, stop ≤ d → start < d)
    (hdecided : start < travelled ∨ stop ≤ travelled) :
    ∃ out, cut start stop unit [] travelled previous (here :: rest) lengths = .ok out
      ∧ (2 ≤ out.length ↔ PassesStart start (lengths.scanl (· + ·) travelled)) := by
  by_cases hpast : start < travelled
  · have hnumber : start ≤ start := le_refl_left (le_of_lt hpast)
    cases previous with
    | none => exact absurd hpast (hfirst rfl).1
    | some v =>
        obtain ⟨out, hcut, hout⟩ := length_cut_past v here rest hcount hpast
          fun d hd => le_of_lt (hstop hnumber d hd)
        exact ⟨out, hcut, iff_of_true hout (passesStart_of_lt lengths hpast)⟩
  · -- A stop that is reached first leaves no number for the start to be.
    have hle : stop ≤ travelled := hdecided.resolve_left hpast
    have hnumber : ¬ start ≤ start := fun h => hpast (hstop h travelled hle)
    obtain ⟨q, hq⟩ : ∃ q, arrive stop unit travelled previous here = .ok q := by
      cases previous with
      | none => exact ⟨here, if_pos ((hfirst rfl).2 hle)⟩
      | some v => exact exists_arrive stop travelled unit v here
    refine ⟨_, cut_arrive (fun h => hpast h.1) hle hq, iff_of_false ?_ ?_⟩
    · simp
    · exact not_passesStart_of_not_number hnumber

/-- A slice comes to have two points exactly when its milestones pass the start. -/
theorem length_cut_unbegun (here : Point α) (rest : List (Point α)) {lengths : List α}
    (hcount : lengths.length = rest.length)
    (hfirst : previous = none →
      ¬ start < travelled ∧ (stop ≤ travelled → (stop - travelled == 0) = true))
    (hstop : start ≤ start → ∀ d, stop ≤ d → start < d) :
    ∃ out, cut start stop unit [] travelled previous (here :: rest) lengths = .ok out
      ∧ (2 ≤ out.length ↔ PassesStart start (lengths.scanl (· + ·) travelled)) := by
  induction rest generalizing here travelled previous lengths with
  | nil =>
      by_cases hdecided : start < travelled ∨ stop ≤ travelled
      · exact length_cut_decided [] hcount hfirst hstop hdecided
      · obtain ⟨hpast, hle⟩ := not_or.mp hdecided
        obtain rfl := List.length_eq_zero_iff.mp hcount
        refine ⟨_, cut_end (fun h => hpast h.1) hle, iff_of_false ?_ ?_⟩
        · split <;> simp
        · exact not_passesStart_singleton hpast
  | cons next rest ih =>
      by_cases hdecided : start < travelled ∨ stop ≤ travelled
      · exact length_cut_decided (next :: rest) hcount hfirst hstop hdecided
      · obtain ⟨hpast, hle⟩ := not_or.mp hdecided
        obtain ⟨d, lengths, rfl⟩ := List.exists_cons_of_length_eq_add_one hcount
        have hlength : lengths.length = rest.length := by simpa using hcount
        rw [cut_cons (fun h => hpast h.1) hle, List.scanl_cons, passesStart_cons hpast]
        by_cases hstart : start ≤ travelled
        · have hnumber : start ≤ start := le_refl_left hstart
          rw [if_pos hstart, if_pos hstart]
          exact length_cut_begun _ here next rest hlength (List.cons_ne_nil here [])
            fun d hd => le_of_lt (hstop hnumber d hd)
        · rw [if_neg hstart, if_neg hstart]
          exact ih next hlength nofun

/-! ## Slices -/

/-- Distances that are neither equal nor reversed are in order, if they are
numbers. -/
theorem lt_of_not_refused (hequal : ¬ (start == stop) = true) (hreversed : ¬ stop < start)
    (hstart : start ≤ start) (hstop : stop ≤ stop) : start < stop := by
  have hle : start ≤ stop := by
    rcases le_total hstart hstop with hle | hge
    · exact hle
    · exact ge_of_le_of_not_lt hge hreversed
  exact lt_iff.mpr ⟨hle, fun hge => hequal (beq_iff.mpr ⟨hle, hge⟩)⟩

/-- A slice that is not refused for its distances is a line, of two points or more
exactly when its milestones pass the start. -/
theorem sliceWith_ends (points : List (Point α)) (start stop : α) (segments : SegmentLengths α) :
    (∃ e, sliceWith points start stop segments = .error e ∧ e ≠ .noSuchVertex)
      ∨ ∃ line, sliceWith points start stop segments = .ok line
        ∧ ¬ segments.total ≤ start
        ∧ (2 ≤ line.points.length ↔ PassesStart start segments.milestones) := by
  rcases sliceWith_cases points start stop segments with hrefused |
    ⟨hlength, hcount, hequal, hstart, hstop, hreversed, hbeyond, hslice⟩
  · exact .inl hrefused
  · cases points with
    | nil => exact absurd hlength (by simp)
    | cons first rest =>
        have hfirst (_ : (none : Option (Point α)) = none) :
            ¬ start < 0 ∧ (stop ≤ 0 → (stop - 0 == 0) = true) := by
          refine ⟨hstart, ?_⟩
          intro hle
          have hge : 0 ≤ stop := ge_of_le_of_not_lt hle hstop
          exact sub_beq_zero_iff.mpr
            ⟨hle, hge, isFinite_of_le isFinite_zero hge hle isFinite_zero⟩
        have hordered (hnumber : start ≤ start) (d : α) (hd : stop ≤ d) : start < d :=
          lt_of_lt_of_le (lt_of_not_refused hequal hreversed hnumber (le_refl_left hd)) hd
        obtain ⟨out, hcut, hout⟩ := length_cut_unbegun first rest (by simpa using hcount) hfirst
          hordered
        refine .inr ⟨⟨out, none⟩, ?_, hbeyond, hout⟩
        rw [hslice, hcut]
        rfl

end Graticule
