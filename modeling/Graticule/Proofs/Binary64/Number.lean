import Graticule.Proofs.Binary64.Packing

/-!
# The numbers doubles stand for

A double stands for a rational, and what is not a number for none. Comparisons
of doubles are those of the numbers they stand for, which holds for infinities
too when they stand for the first power of two that no double reaches.
-/

namespace Graticule.Binary64

open Float.Model
open Float.Model.UnpackedFloat hiding pack unpack

variable {s : Sign} {m : ℕ} {e : ℤ} {f g : UnpackedFloat} {p q : ℚ}

/-! ## Sizes -/

theorem tooLarge_pos : 0 < tooLarge := by
  unfold tooLarge
  positivity

theorem tooLarge_eq : tooLarge = 2 ^ ((971 : ℤ) + 53) := by
  unfold tooLarge
  norm_num

theorem Canonical.size_pos (h : Canonical m e) : (0 : ℚ) < m * 2 ^ e := by
  have hm := h.pos
  positivity

theorem Canonical.size_lt (h : Canonical m e) (he : e ≤ 971) : (m : ℚ) * 2 ^ e < tooLarge := by
  have hlt := lt_two_pow_quantum h.size_pos
  rw [h.quantum_eq] at hlt
  rw [tooLarge_eq]
  exact hlt.trans_le (zpow_le_zpow_right₀ (by norm_num) (by omega))

theorem Canonical.le_size (h : Canonical m e) (he : 971 < e) : tooLarge ≤ m * 2 ^ e := by
  have hle := two_pow_quantum_le h.size_pos (by rw [h.quantum_eq]; omega)
  rw [h.quantum_eq] at hle
  rw [tooLarge_eq]
  exact (zpow_le_zpow_right₀ (by norm_num) (by omega)).trans hle

/-- A finite double is between the infinities. -/
theorem Fits.signed_bounds {hm : 0 < m} (h : Fits (.finite s m e hm)) :
    -tooLarge < signed s (m * 2 ^ e) ∧ signed s (m * 2 ^ e) < tooLarge := by
  obtain ⟨hcanonical, he⟩ := h.finite
  have hlt := hcanonical.size_lt he
  have hpos := hcanonical.size_pos
  cases s
  · exact ⟨neg_lt_neg hlt, by simp only [signed]; linarith⟩
  · exact ⟨by simp only [signed]; linarith, hlt⟩

/-- Of two sizes the one with the larger exponent is the larger. -/
theorem Canonical.size_lt_of_lt {m' : ℕ} {e' : ℤ} (h : Canonical m e) (h' : Canonical m' e')
    (he : e < e') : (m : ℚ) * 2 ^ e < m' * 2 ^ e' := by
  have hlt := lt_two_pow_quantum h.size_pos
  have hle := two_pow_quantum_le h'.size_pos (by have := h.least; rw [h'.quantum_eq]; omega)
  rw [h.quantum_eq] at hlt
  rw [h'.quantum_eq] at hle
  exact hlt.trans_le ((zpow_le_zpow_right₀ (by norm_num) (by omega)).trans hle)

/-- Sizes compare by their exponents first and then by their mantissas. -/
theorem Canonical.compare_eq {m' : ℕ} {e' : ℤ} (h : Canonical m e) (h' : Canonical m' e') :
    (compare e e').then (compare m m') = cmp ((m : ℚ) * 2 ^ e) (m' * 2 ^ e') := by
  rcases lt_trichotomy e e' with hlt | rfl | hgt
  · rw [compare_lt_iff_lt.mpr hlt, cmp_eq_lt_iff _ _ |>.mpr (h.size_lt_of_lt h' hlt)]
    rfl
  · have hpos : (0 : ℚ) < 2 ^ e := by positivity
    rw [compare_eq_iff_eq.mpr rfl, cmp_mul_pos_right hpos, Nat.strictMono_cast.cmp_map_eq,
      cmp_eq_compare]
    rfl
  · rw [compare_gt_iff_gt.mpr hgt, cmp_eq_gt_iff _ _ |>.mpr (h'.size_lt_of_lt h hgt)]
    rfl

/-! ## Comparing -/

theorem lt_eq_cmp (h : p < q) : some Ordering.lt = some (cmp p q) := by
  rw [(cmp_eq_lt_iff p q).mpr h]

theorem gt_eq_cmp (h : q < p) : some Ordering.gt = some (cmp p q) := by
  rw [(cmp_eq_gt_iff p q).mpr h]

/-- Doubles compare as the numbers they stand for. -/
theorem compare_eq (hf : Fits f) (hg : Fits g) (hp : number f = some p)
    (hq : number g = some q) : f.compare g = some (cmp p q) := by
  have htop := tooLarge_pos
  cases f with
  | notANumber => cases hp
  | infinity s =>
      cases hp
      cases g with
      | notANumber => cases hq
      | infinity s' =>
          cases hq
          cases s <;> cases s'
          · exact congrArg some (cmp_self_eq_eq _).symm
          · exact lt_eq_cmp (by simp only [signed]; linarith)
          · exact gt_eq_cmp (by simp only [signed]; linarith)
          · exact congrArg some (cmp_self_eq_eq _).symm
      | zero s' =>
          cases hq
          cases s
          · exact lt_eq_cmp (neg_neg_of_pos htop)
          · exact gt_eq_cmp htop
      | finite s' m' e' hm' =>
          cases hq
          cases s
          · exact lt_eq_cmp hg.signed_bounds.1
          · exact gt_eq_cmp hg.signed_bounds.2
  | zero s =>
      cases hp
      cases g with
      | notANumber => cases hq
      | infinity s' =>
          cases hq
          cases s'
          · exact gt_eq_cmp (neg_neg_of_pos htop)
          · exact lt_eq_cmp htop
      | zero s' =>
          cases hq
          exact congrArg some (cmp_self_eq_eq _).symm
      | finite s' m' e' hm' =>
          cases hq
          have hpos := hg.finite.1.size_pos
          cases s'
          · exact gt_eq_cmp (neg_neg_of_pos hpos)
          · exact lt_eq_cmp hpos
  | finite s m e hm =>
      cases hp
      have hpos := hf.finite.1.size_pos
      cases g with
      | notANumber => cases hq
      | infinity s' =>
          cases hq
          cases s'
          · cases s <;> exact gt_eq_cmp hf.signed_bounds.1
          · cases s <;> exact lt_eq_cmp hf.signed_bounds.2
      | zero s' =>
          cases hq
          cases s
          · exact lt_eq_cmp (neg_neg_of_pos hpos)
          · exact gt_eq_cmp hpos
      | finite s' m' e' hm' =>
          cases hq
          have hpos' := hg.finite.1.size_pos
          have hcompare := hf.finite.1.compare_eq hg.finite.1
          cases s <;> cases s'
          · show some ((compare e e').then (compare m m')).swap = _
            have hneg : StrictAnti (Neg.neg : ℚ → ℚ) := fun _ _ => neg_lt_neg
            rw [hcompare, cmp_swap]
            exact congrArg some (hneg.cmp_map_eq _ _).symm
          · exact lt_eq_cmp (by simp only [signed]; linarith)
          · exact gt_eq_cmp (by simp only [signed]; linarith)
          · exact congrArg some hcompare

/-! ## Doubles -/

/-- The number a double stands for. -/
def value (x : Float) : Option ℚ := number x.toModel.unpack

theorem fits_toModel (x : Float) : Fits x.toModel.unpack := fits_unpack _

variable {x y : Float}

theorem compare_toModel (hx : value x = some p) (hy : value y = some q) :
    x.toModel.unpack.compare y.toModel.unpack = some (cmp p q) :=
  compare_eq (fits_toModel x) (fits_toModel y) hx hy

theorem compare_eq_none (h : number f = none ∨ number g = none) : f.compare g = none := by
  cases f <;> cases g <;> simp [number] at h <;> rfl

/-- Any of the comparisons holds of two doubles when they stand for numbers that
are so related. -/
theorem compare_any_iff {b : Ordering → Bool} {r : ℚ → ℚ → Prop}
    (hr : ∀ p q, b (cmp p q) = true ↔ r p q) :
    (x.toModel.unpack.compare y.toModel.unpack).any b = true
      ↔ ∃ p q, value x = some p ∧ value y = some q ∧ r p q := by
  cases hx : value x with
  | none =>
      rw [compare_eq_none (.inl hx)]
      simp
  | some p =>
      cases hy : value y with
      | none =>
          rw [compare_eq_none (.inr hy)]
          simp
      | some q =>
          rw [compare_toModel hx hy]
          simp [hr]

theorem le_iff : x ≤ y ↔ ∃ p q, value x = some p ∧ value y = some q ∧ p ≤ q := by
  have hmodel : x ≤ y
      ↔ (x.toModel.unpack.compare y.toModel.unpack).any Ordering.isLE = true :=
    decide_eq_true_iff
  refine hmodel.trans (compare_any_iff fun p q => ?_)
  rw [Ordering.isLE_iff_ne_gt, cmp_eq_gt_iff, not_lt]

theorem lt_iff : x < y ↔ ∃ p q, value x = some p ∧ value y = some q ∧ p < q := by
  have hmodel : x < y
      ↔ (x.toModel.unpack.compare y.toModel.unpack == some .lt) = true :=
    decide_eq_true_iff
  have hany : (x.toModel.unpack.compare y.toModel.unpack == some .lt)
      = (x.toModel.unpack.compare y.toModel.unpack).any (· == .lt) := by
    cases x.toModel.unpack.compare y.toModel.unpack <;> rfl
  rw [hmodel, hany]
  refine compare_any_iff fun p q => ?_
  rw [beq_iff_eq, cmp_eq_lt_iff]

theorem beq_iff : (x == y) = true ↔ ∃ p q, value x = some p ∧ value y = some q ∧ p = q := by
  have hany : (x == y) = (x.toModel.unpack.compare y.toModel.unpack).any (· == .eq) := by
    show (x.toModel.unpack.compare y.toModel.unpack == some .eq) = _
    cases x.toModel.unpack.compare y.toModel.unpack <;> rfl
  rw [hany]
  refine compare_any_iff fun p q => ?_
  rw [beq_iff_eq, cmp_eq_eq_iff]

theorem isFinite_number (h : Fits f) :
    f.isFinite = true ↔ ∃ p, number f = some p ∧ |p| < tooLarge := by
  have htop := tooLarge_pos
  cases f with
  | notANumber => exact iff_of_false (by decide) fun ⟨p, hp, _⟩ => by cases hp
  | infinity s =>
      refine iff_of_false Bool.false_ne_true fun ⟨p, hp, hlt⟩ => ?_
      cases hp
      cases s
      · rw [signed, abs_neg, abs_of_pos htop] at hlt
        exact lt_irrefl _ hlt
      · rw [signed, abs_of_pos htop] at hlt
        exact lt_irrefl _ hlt
  | zero s => exact iff_of_true rfl ⟨0, rfl, by rwa [abs_zero]⟩
  | finite s m e hm => exact iff_of_true rfl ⟨_, rfl, abs_lt.mpr h.signed_bounds⟩

theorem isFinite_iff : x.isFinite = true ↔ ∃ p, value x = some p ∧ |p| < tooLarge :=
  isFinite_number (fits_toModel x)

end Graticule.Binary64
