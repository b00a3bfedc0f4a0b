import Graticule.Proofs.Ordered
import Graticule.Proofs.Reduction

/-!
# Where a section is cut

The search for a cut starts from the limit, so at first sight the point it finds
depends on the limit. It does not: whenever it finds one, it is the first point of
the section with the largest measure, and the limit only decides whether there is
a cut at all. `Cut.IsFirst` says this without the search. Everything that compares
a cut with another one, under a lower limit or among fewer points, goes through
it.

The points before a cut need care where a measure may fail to be a number. Such a
point is not below the cut, since nothing is; it is only not above the limit. What
holds of it is what holds of every point at or below the limit: it was never a
candidate.
-/

namespace Graticule.Simplify

variable {α β : Type} [Scalar α]

/-- A cut is at the first of the points with the largest measure above a limit. -/
structure Cut.IsFirst (measure : β → α) (limit : α) (points : List β) (c : Cut β) : Prop where
  append : c.before ++ c.pivot :: c.after = points
  above : limit < measure c.pivot
  before : ∀ p ∈ c.before, limit < measure p → measure p < measure c.pivot
  after : ∀ p ∈ c.after, ¬ measure c.pivot < measure p

namespace Cut.IsFirst

variable {measure : β → α} {limit : α} {points : List β} {c d : Cut β}

/-- Of two such cuts neither is before the other. -/
theorem not_before {rest : List β} (hc : IsFirst measure limit points c)
    (hd : IsFirst measure limit points d) (hbefore : d.before = c.before ++ c.pivot :: rest) :
    False := by
  have hlt := hd.before c.pivot (by simp [hbefore]) hc.above
  have hafter : c.after = rest ++ d.pivot :: d.after := by
    have hsame := hc.append.trans hd.append.symm
    rw [hbefore, List.append_assoc] at hsame
    exact (List.cons.inj (List.append_cancel_left hsame)).2
  exact hc.after d.pivot (by simp [hafter]) hlt

theorem unique (hc : IsFirst measure limit points c) (hd : IsFirst measure limit points d) :
    c = d := by
  have hsame := hc.append.trans hd.append.symm
  have hbefore : c.before = d.before := by
    rcases List.append_eq_append_iff.mp hsame with
      ⟨rest, hbefore, hafter⟩ | ⟨rest, hbefore, hafter⟩
    · cases rest with
      | nil => simpa using hbefore.symm
      | cons p rest =>
          obtain ⟨rfl, -⟩ := List.cons.inj hafter
          exact (not_before hc hd hbefore).elim
    · cases rest with
      | nil => simpa using hbefore
      | cons p rest =>
          obtain ⟨rfl, -⟩ := List.cons.inj hafter
          exact (not_before hd hc hbefore).elim
  rw [hbefore] at hsame
  obtain ⟨hpivot, hafter⟩ := List.cons.inj (List.append_cancel_left hsame)
  calc c = ⟨c.before, c.pivot, c.after⟩ := rfl
    _ = ⟨d.before, d.pivot, d.after⟩ := by rw [hbefore, hpivot, hafter]
    _ = d := rfl

/-- The cut stays where it is when points other than its own are left out. -/
theorem sublist (h : IsFirst measure limit points c) {before after : List β}
    (hbefore : before.Sublist c.before) (hafter : after.Sublist c.after) :
    IsFirst measure limit (before ++ c.pivot :: after) ⟨before, c.pivot, after⟩ where
  append := rfl
  above := h.above
  before p hp := h.before p (hbefore.subset hp)
  after p hp := h.after p (hafter.subset hp)

/-- The cut stays where it is when the limit is lowered. -/
theorem lower [StrictlyOrdered α] {low : α} (h : IsFirst measure limit points c)
    (hle : low ≤ limit) : IsFirst measure low points c where
  append := h.append
  above := StrictlyOrdered.lt_of_le_of_lt hle h.above
  before p hp hlow := by
    have hnumber := (StrictlyOrdered.number_of_lt hlow).2
    exact (StrictlyOrdered.lt_or_lt h.above hnumber).elim (h.before p hp) id
  after := h.after

end Cut.IsFirst

/-! ## The search finds it -/

section

variable [StrictlyOrdered α] {measure : β → α} {limit : α}

/-- The answer of a search is the best so far, if no point ahead is above it, or
else a point ahead. -/
theorem farthest_eq_some_or {most : α} {best : Option (Cut β)} {passed ahead : List β}
    {c : Cut β} (h : farthest measure most best passed ahead = some c) :
    (best = some c ∧ ∀ p ∈ ahead, ¬ most < measure p)
      ∨ ∃ before, c.before = before.reverse ++ passed
        ∧ Cut.IsFirst measure most ahead ⟨before, c.pivot, c.after⟩ := by
  induction ahead generalizing most best passed with
  | nil => exact .inl ⟨h, by simp⟩
  | cons p rest ih =>
      rw [farthest] at h
      split at h
      · next hlt =>
          rcases ih h with ⟨hbest, hrest⟩ | ⟨before, hbefore, hfirst⟩
          · obtain rfl := Option.some.inj hbest
            exact .inr ⟨[], rfl, rfl, hlt, by simp, hrest⟩
          · refine .inr ⟨p :: before, by simp [hbefore], ?_, ?_, ?_, hfirst.after⟩
            · rw [List.cons_append, hfirst.append]
            · exact StrictlyOrdered.lt_trans hlt hfirst.above
            · refine List.forall_mem_cons.mpr ⟨fun _ => hfirst.above, fun q hq hmost => ?_⟩
              have hnumber := (StrictlyOrdered.number_of_lt hmost).2
              exact (StrictlyOrdered.lt_or_lt hfirst.above hnumber).elim (hfirst.before q hq) id
      · next hlt =>
          rcases ih h with ⟨hbest, hrest⟩ | ⟨before, hbefore, hfirst⟩
          · exact .inl ⟨hbest, List.forall_mem_cons.mpr ⟨hlt, hrest⟩⟩
          · refine .inr ⟨p :: before, by simp [hbefore], ?_, hfirst.above, ?_, hfirst.after⟩
            · rw [List.cons_append, hfirst.append]
            · exact List.forall_mem_cons.mpr ⟨fun hmost => absurd hmost hlt, hfirst.before⟩

theorem isFirst_of_cut?_eq_some {points : List β} {c : Cut β}
    (h : cut? measure limit points = some c) : c.IsFirst measure limit points := by
  obtain ⟨d, hd, rfl⟩ := Option.map_eq_some_iff.mp h
  rcases farthest_eq_some_or hd with ⟨hbest, -⟩ | ⟨before, hbefore, hfirst⟩
  · cases hbest
  · rw [List.append_nil] at hbefore
    rw [hbefore, List.reverse_reverse]
    exact hfirst

theorem cut?_eq_some_iff {points : List β} {c : Cut β} :
    cut? measure limit points = some c ↔ c.IsFirst measure limit points := by
  refine ⟨isFirst_of_cut?_eq_some, fun hfirst => ?_⟩
  cases hcut : cut? measure limit points with
  | none =>
      have hmem : c.pivot ∈ points := by
        rw [← hfirst.append]
        simp
      exact absurd hfirst.above (cut?_eq_none_iff.mp hcut c.pivot hmem)
  | some d => rw [(isFirst_of_cut?_eq_some hcut).unique hfirst]

end

end Graticule.Simplify
