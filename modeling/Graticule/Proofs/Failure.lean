/-!
# Computations that may fail

A computation over `Except` has an answer when all its steps have one, and then
its answer is theirs put together. A traversal of a list is the same, element by
element.
-/

namespace Graticule

theorem bind_eq_ok {β γ ε : Type} {x : Except ε β} {f : β → Except ε γ} {c : γ} :
    (x >>= f) = .ok c ↔ ∃ b, x = .ok b ∧ f b = .ok c := by
  cases x with
  | error e => simp [bind, Except.bind]
  | ok b => simp [bind, Except.bind]

theorem map_eq_ok {β γ ε : Type} {x : Except ε β} {f : β → γ} {c : γ} :
    (f <$> x) = .ok c ↔ ∃ b, x = .ok b ∧ f b = c := by
  cases x with
  | error e => simp [Functor.map, Except.map]
  | ok b => simp [Functor.map, Except.map]

/-- A list that was encoded element by element is decoded element by
element. -/
theorem mapM_map_eq_ok {β γ δ ε : Type} {f : γ → Except ε δ} {e : β → γ} {g : β → δ}
    (h : ∀ x, f (e x) = .ok (g x)) (xs : List β) :
    (xs.map e).mapM f = .ok (xs.map g) := by
  induction xs with
  | nil => rfl
  | cons x xs ih =>
      rw [List.map_cons, List.mapM_cons, h x, ih]
      rfl

/-- What holds of every answer a traversal's step can give holds of all the
answers of the traversal. -/
theorem forall_of_mapM_eq_ok {β γ ε : Type} {f : β → Except ε γ} {P : γ → Prop}
    {xs : List β} {ys : List γ} (h : xs.mapM f = .ok ys)
    (hstep : ∀ x ∈ xs, ∀ y, f x = .ok y → P y) : ∀ y ∈ ys, P y := by
  induction xs generalizing ys with
  | nil =>
      cases h
      simp
  | cons x xs ih =>
      rw [List.mapM_cons] at h
      obtain ⟨y, hy, h⟩ := bind_eq_ok.mp h
      obtain ⟨rest, hrest, h⟩ := bind_eq_ok.mp h
      cases h
      have hhead := hstep x (by simp) y hy
      have htail := ih hrest fun z hz => hstep z (by simp [hz])
      simpa using ⟨hhead, htail⟩

end Graticule
