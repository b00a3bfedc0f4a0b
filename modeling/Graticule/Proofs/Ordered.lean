import Graticule.Scalar

/-!
# Scalars with an order

What walks along a path need of their distances: an order on those that are
numbers, differences that are zero only between equals, and sums that keep the
order. A value that is not a number is not even at most itself, so `a ≤ a` says
that `a` is one.

Doubles have all this, with zeros of two signs and with infinities, which are
numbers here but not finite.

What only looks for a largest or a smallest value needs less, the strict order on
numbers alone.
-/

namespace Graticule

/-- The laws of an order on the values that are numbers, and of the sums and
differences of finite ones. -/
class OrderedScalar (α : Type) [Scalar α] : Prop where
  le_trans {a b c : α} : a ≤ b → b ≤ c → a ≤ c
  le_refl_left {a b : α} : a ≤ b → a ≤ a
  le_refl_right {a b : α} : a ≤ b → b ≤ b
  le_total {a b : α} : a ≤ a → b ≤ b → a ≤ b ∨ b ≤ a
  lt_iff {a b : α} : a < b ↔ a ≤ b ∧ ¬ b ≤ a
  beq_iff {a b : α} : (a == b) = true ↔ a ≤ b ∧ b ≤ a
  sub_beq_zero_iff {a b : α} :
    (a - b == 0) = true ↔ a ≤ b ∧ b ≤ a ∧ Scalar.isFinite a = true
  isFinite_zero : Scalar.isFinite (0 : α) = true
  neg_zero_le : (-0 : α) ≤ 0
  zero_le_neg : (0 : α) ≤ -0
  isFinite_of_lt {a b c : α} :
    Scalar.isFinite a = true → a ≤ b → b < c → Scalar.isFinite b = true
  isFinite_of_le {a b c : α} :
    Scalar.isFinite a = true → a ≤ b → b ≤ c → Scalar.isFinite c = true →
      Scalar.isFinite b = true
  add_le_add_right {a b d : α} : a ≤ b → Scalar.isFinite d = true → a + d ≤ b + d

namespace OrderedScalar

variable {α : Type} [Scalar α] [OrderedScalar α] {a b c : α}

theorem le_of_lt (h : a < b) : a ≤ b := (lt_iff.mp h).1

theorem not_le_of_lt (h : a < b) : ¬ b ≤ a := (lt_iff.mp h).2

theorem lt_of_lt_of_le (h : a < b) (h' : b ≤ c) : a < c :=
  lt_iff.mpr ⟨le_trans (le_of_lt h) h', fun hca => not_le_of_lt h (le_trans h' hca)⟩

theorem lt_of_le_of_lt (h : a ≤ b) (h' : b < c) : a < c :=
  lt_iff.mpr ⟨le_trans h (le_of_lt h'), fun hca => not_le_of_lt h' (le_trans hca h)⟩

theorem not_lt_of_le (h : a ≤ b) : ¬ b < a := fun hba => not_le_of_lt hba h

theorem ge_of_le_of_not_lt (h : a ≤ b) (h' : ¬ a < b) : b ≤ a :=
  Classical.byContradiction fun hba => h' (lt_iff.mpr ⟨h, hba⟩)

/-- Numbers compare. -/
theorem le_of_not_le (ha : a ≤ a) (hb : b ≤ b) (h : ¬ a ≤ b) : b ≤ a :=
  (le_total ha hb).resolve_left h

theorem sub_ne_zero_of_lt (h : a < b) : (a - b == 0) = false := by
  refine Bool.eq_false_iff.mpr fun hzero => ?_
  exact not_le_of_lt h (sub_beq_zero_iff.mp hzero).2.1

theorem isNaN_eq_false_iff : Scalar.isNaN a = false ↔ a ≤ a := by
  rw [Scalar.isNaN, Bool.not_eq_false', beq_iff, and_self_iff]

theorem not_le_of_isNaN (h : Scalar.isNaN a = true ∨ Scalar.isNaN b = true) : ¬ a ≤ b := by
  intro hle
  rcases h with ha | hb
  · rw [isNaN_eq_false_iff.mpr (le_refl_left hle)] at ha
    cases ha
  · rw [isNaN_eq_false_iff.mpr (le_refl_right hle)] at hb
    cases hb

/-- Values that do not compare are not both numbers. -/
theorem isNaN_of_not_le (h : ¬ a ≤ b) (h' : ¬ b ≤ a) :
    Scalar.isNaN a = true ∨ Scalar.isNaN b = true := by
  cases ha : Scalar.isNaN a with
  | true => exact .inl rfl
  | false =>
      cases hb : Scalar.isNaN b with
      | true => exact .inr rfl
      | false =>
          rcases le_total (isNaN_eq_false_iff.mp ha) (isNaN_eq_false_iff.mp hb) with hle | hge
          · exact absurd hle h
          · exact absurd hge h'

theorem lt_of_not_le (ha : Scalar.isNaN a = false) (hb : Scalar.isNaN b = false)
    (h : ¬ b ≤ a) : a < b := by
  rw [isNaN_eq_false_iff] at ha hb
  exact lt_iff.mpr ⟨le_of_not_le hb ha h, h⟩

/-! ## Running sums -/

/-- Sums keep the order of where they start. -/
theorem foldl_add_le {ds : List α} (h : a ≤ b) (hds : ∀ d ∈ ds, Scalar.isFinite d = true) :
    ds.foldl (· + ·) a ≤ ds.foldl (· + ·) b := by
  induction ds generalizing a b with
  | nil => exact h
  | cons d ds ih =>
      have hd := hds d List.mem_cons_self
      exact ih (add_le_add_right h hd) fun d' hd' => hds d' (List.mem_cons_of_mem _ hd')

/-- A total starts from negative zero, and the order does not see the
difference. -/
theorem total_le_foldl {ds : List α} (hds : ∀ d ∈ ds, Scalar.isFinite d = true) :
    Scalar.total ds ≤ ds.foldl (· + ·) 0 :=
  foldl_add_le neg_zero_le hds

theorem foldl_le_total {ds : List α} (hds : ∀ d ∈ ds, Scalar.isFinite d = true) :
    ds.foldl (· + ·) 0 ≤ Scalar.total ds :=
  foldl_add_le zero_le_neg hds

end OrderedScalar

/-! ## The strict order alone -/

/-- The strict order is total on numbers, up to numeric equality, and a value that
is not a number is neither less nor greater than any. -/
class StrictlyOrdered (α : Type) [Scalar α] : Prop where
  lt_irrefl {a : α} : ¬ a < a
  lt_trans {a b c : α} : a < b → b < c → a < c
  lt_or_lt {a b c : α} : a < c → Scalar.isNaN b = false → a < b ∨ b < c
  number_of_lt {a b : α} : a < b → Scalar.isNaN a = false ∧ Scalar.isNaN b = false
  le_iff {a b : α} : a ≤ b ↔ Scalar.isNaN a = false ∧ Scalar.isNaN b = false ∧ ¬ b < a

namespace StrictlyOrdered

variable {α : Type} [Scalar α]

theorem lt_of_le_of_lt [StrictlyOrdered α] {a b c : α} (h : a ≤ b) (h' : b < c) : a < c := by
  obtain ⟨hnumber, -, hlt⟩ := le_iff.mp h
  exact (lt_or_lt h' hnumber).resolve_left hlt

instance [OrderedScalar α] : StrictlyOrdered α where
  lt_irrefl h := OrderedScalar.not_le_of_lt h (OrderedScalar.le_of_lt h)
  lt_trans h h' := OrderedScalar.lt_of_lt_of_le h (OrderedScalar.le_of_lt h')
  lt_or_lt {a b c} h hb := by
    have hb := OrderedScalar.isNaN_eq_false_iff.mp hb
    have ha := OrderedScalar.le_refl_left (OrderedScalar.le_of_lt h)
    by_cases hba : b ≤ a
    · exact .inr (OrderedScalar.lt_of_le_of_lt hba h)
    · exact .inl (OrderedScalar.lt_iff.mpr ⟨OrderedScalar.le_of_not_le hb ha hba, hba⟩)
  number_of_lt h := by
    have hle := OrderedScalar.le_of_lt h
    exact ⟨OrderedScalar.isNaN_eq_false_iff.mpr (OrderedScalar.le_refl_left hle),
      OrderedScalar.isNaN_eq_false_iff.mpr (OrderedScalar.le_refl_right hle)⟩
  le_iff {a b} := by
    rw [OrderedScalar.isNaN_eq_false_iff, OrderedScalar.isNaN_eq_false_iff]
    constructor
    · intro h
      exact ⟨OrderedScalar.le_refl_left h, OrderedScalar.le_refl_right h,
        OrderedScalar.not_lt_of_le h⟩
    · rintro ⟨ha, hb, hlt⟩
      exact (OrderedScalar.le_total ha hb).elim id fun h =>
        OrderedScalar.ge_of_le_of_not_lt h hlt

end StrictlyOrdered

end Graticule
