import Graticule.Proofs.Binary64.Nearest

/-!
# Rounding of doubles

Arithmetic on doubles is defined bit by bit: a whole number is shifted to where
the mantissa of the answer ends, a round bit and a sticky bit keep what was
shifted out, and from these the mantissa is rounded. In this file that is read
as rounding to the nearest double.

The answer is in canonical form: the mantissa has all its bits unless the
exponent is the least. The exponent may be too large for a double, and packing
makes that an infinity.
-/

namespace Graticule.Binary64

open Float.Model Float.Model.UnpackedFloat

/-! ## Shifting -/

/-- A mantissa with its round and sticky bit says of a number what rounding
wants to know. -/
structure Represents (em : ExtendedMantissa) (x : ℚ) : Prop where
  floor : ⌊x⌋ = em.mantissa
  round : em.roundBit = true ↔ em.mantissa + 1 / 2 ≤ x
  sticky : em.stickyBit = true ↔ x ≠ em.mantissa ∧ x ≠ em.mantissa + 1 / 2

namespace Represents

variable {em : ExtendedMantissa} {x : ℚ}

theorem exact (m : ℕ) : Represents (.ofMantissaAndAccuracy m .exact) m where
  floor := Int.floor_natCast m
  round := by simp [ExtendedMantissa.ofMantissaAndAccuracy]
  sticky := by simp [ExtendedMantissa.ofMantissaAndAccuracy]

theorem bounds (h : Represents em x) : (em.mantissa : ℚ) ≤ x ∧ x < em.mantissa + 1 := by
  have hfloor := Int.floor_eq_iff.mp h.floor
  exact_mod_cast hfloor

theorem bits_iff (h : Represents em x) :
    (em.roundBit || em.stickyBit) = true ↔ x ≠ em.mantissa := by
  rw [Bool.or_eq_true, h.round, h.sticky]
  constructor
  · rintro (hround | hsticky) heq
    · linarith
    · exact hsticky.1 heq
  · intro hne
    rcases le_or_gt ((em.mantissa : ℚ) + 1 / 2) x with hle | hlt
    · exact .inl hle
    · exact .inr ⟨hne, hlt.ne⟩

/-- The bit that is shifted out becomes the round bit. -/
theorem shiftRightOne (h : Represents em x) : Represents em.shiftRightOne (x / 2) := by
  obtain ⟨hle, hlt⟩ := h.bounds
  have hdiv : (em.mantissa : ℚ) = 2 * (em.mantissa / 2 : ℕ) + (em.mantissa % 2 : ℕ) := by
    exact_mod_cast (Nat.div_add_mod em.mantissa 2).symm
  have hbit := Nat.mod_two_eq_zero_or_one em.mantissa
  refine ⟨?_, ?_, h.bits_iff.trans ?_⟩
  · show ⌊x / 2⌋ = ((em.mantissa / 2 : ℕ) : ℤ)
    rw [Int.floor_eq_iff, Int.cast_natCast]
    rcases hbit with hm | hm <;> rw [hm] at hdiv <;> push_cast at hdiv <;>
      constructor <;> linarith
  · show (em.mantissa % 2 != 0) = true ↔ ((em.mantissa / 2 : ℕ) : ℚ) + 1 / 2 ≤ x / 2
    rcases hbit with hm | hm <;> rw [hm] at hdiv ⊢ <;> push_cast at hdiv
    · exact iff_of_false (by decide) fun hge => by linarith
    · exact iff_of_true (by decide) (by linarith)
  · show x ≠ em.mantissa
      ↔ x / 2 ≠ ((em.mantissa / 2 : ℕ) : ℚ) ∧ x / 2 ≠ ((em.mantissa / 2 : ℕ) : ℚ) + 1 / 2
    rcases hbit with hm | hm <;> rw [hm] at hdiv <;> push_cast at hdiv
    · exact ⟨fun hne => ⟨fun heq => hne (by linarith), fun heq => by linarith⟩,
        fun hne heq => hne.1 (by linarith)⟩
    · exact ⟨fun hne => ⟨fun heq => by linarith, fun heq => hne (by linarith)⟩,
        fun hne heq => hne.2 (by linarith)⟩

theorem shiftRight (h : Represents em x) (n : ℕ) : Represents (em >>> n) (x / 2 ^ n) := by
  show Represents (n.repeat ExtendedMantissa.shiftRightOne em) _
  induction n with
  | zero => simpa [Nat.repeat] using h
  | succ n ih =>
      rw [Nat.repeat, pow_succ, ← div_div]
      exact ih.shiftRightOne

theorem roundedMantissa (h : Represents em x) : (em.roundedMantissa : ℤ) = nearestWhole x := by
  obtain ⟨hle, hlt⟩ := h.bounds
  have hround := h.round
  have hsticky := h.sticky
  unfold nearestWhole
  rw [h.floor, Int.cast_natCast]
  unfold ExtendedMantissa.roundedMantissa ExtendedMantissa.accuracy
  obtain ⟨m, r, s⟩ := em
  cases r <;> cases s <;> simp only [Bool.false_eq_true, false_iff, true_iff,
    not_and_or, not_not] at hround hsticky hle hlt ⊢
  · have hx : x = m := hsticky.resolve_right fun heq => hround heq.ge
    rw [if_pos (by rw [hx]; norm_num)]
    rfl
  · rw [if_pos (by linarith)]
    rfl
  · have hx : x = m + 1 / 2 := hsticky.resolve_left fun heq => by linarith
    rw [if_neg (by linarith), if_neg (by linarith)]
    show ((m + m % 2 : ℕ) : ℤ) = _
    push_cast
    rfl
  · have hgt : (m : ℚ) + 1 / 2 < x := lt_of_le_of_ne hround (Ne.symm hsticky.2)
    rw [if_neg (by linarith), if_pos (by linarith)]
    show ((m + 1 : ℕ) : ℤ) = _
    push_cast
    rfl

end Represents

/-! ## Rounding -/

/-- A size with a sign. -/
def signed : Sign → ℚ → ℚ
  | .negative, q => -q
  | .positive, q => q

@[simp]
theorem signed_zero (s : Sign) : signed s 0 = 0 := by
  cases s
  · exact neg_zero
  · rfl

theorem nearest_signed (s : Sign) (q : ℚ) : nearest (signed s q) = signed s (nearest q) := by
  cases s
  · exact nearest_neg q
  · rfl

/-- The first power of two that is too large for a double. -/
def tooLarge : ℚ := 2 ^ 1024

/-- The number a double stands for, if it stands for one. The infinities stand
for the first numbers that are too large. -/
def number : UnpackedFloat → Option ℚ
  | .notANumber => none
  | .infinity s => some (signed s tooLarge)
  | .zero _ => some 0
  | .finite s m e _ => some (signed s (m * 2 ^ e))

/-- Finite values are in canonical form. -/
def InForm : UnpackedFloat → Prop
  | .finite _ m e _ => Canonical m e
  | _ => True

theorem log_natCast_mul_two_pow {m : ℕ} (hm : 0 < m) (e : ℤ) :
    Int.log 2 ((m : ℚ) * 2 ^ e) = m.log2 + e := by
  have hpos : (0 : ℚ) < m * 2 ^ e := by positivity
  apply le_antisymm
  · rw [← Int.lt_add_one_iff, ← Int.lt_zpow_iff_log_lt (by norm_num) hpos, add_right_comm,
      Nat.cast_ofNat, zpow_add₀ (by norm_num)]
    gcongr
    exact_mod_cast Nat.lt_log2_self
  · rw [← Int.zpow_le_iff_le_log (by norm_num) hpos, Nat.cast_ofNat, zpow_add₀ (by norm_num)]
    gcongr
    exact_mod_cast Nat.log2_self_le hm.ne'

theorem targetExponent_eq_quantum {m : ℕ} (hm : 0 < m) (e : ℤ) :
    Format.binary64.targetExponent (totalExponent m e) = quantum (m * 2 ^ e) := by
  have hpos : (0 : ℚ) < m * 2 ^ e := by positivity
  rw [quantum, abs_of_pos hpos, log_natCast_mul_two_pow hm]
  show max ((m.log2 : ℤ) + 1 + e - 53) (-1074) = _
  omega

/-- Rounding may have given the mantissa one bit too many, and then it is even
and loses its last bit to the exponent. -/
theorem shiftToTargetExponent_exact {r : ℕ} {t : ℤ} (hpos : 0 < r) (hle : r ≤ 2 ^ 53)
    (hleast : -1074 ≤ t) (hfull : t = -1074 ∨ 2 ^ 52 ≤ r) :
    let f := shiftToTargetExponent Format.binary64 r t .exact
    Canonical f.1.mantissa f.2 ∧ (f.1.mantissa : ℚ) * 2 ^ f.2 = r * 2 ^ t := by
  intro f
  have hf : f = shiftToExponent r t .exact (quantum (r * 2 ^ t)) := by
    show shiftToTargetExponent Format.binary64 r t .exact = _
    rw [shiftToTargetExponent, targetExponent_eq_quantum hpos]
  rcases hle.lt_or_eq with hlt | heq
  · have hcanonical : Canonical r t := ⟨hpos, hlt, hleast, hfull⟩
    have hshift : f = (.ofMantissaAndAccuracy r .exact, t) := by
      rw [hf, hcanonical.quantum_eq, shiftToExponent, sub_self]
      simp only [Int.toNat_zero, Nat.cast_zero, add_zero]
      rfl
    rw [hshift]
    exact ⟨hcanonical, rfl⟩
  · have hvalue : (2 ^ 53 : ℕ) * (2 : ℚ) ^ t = (2 ^ 52 : ℕ) * 2 ^ (t + 1) := by
      rw [zpow_add₀ (by norm_num)]
      push_cast
      ring
    have hcanonical : Canonical (2 ^ 52) (t + 1) :=
      ⟨by norm_num, by norm_num, by omega, .inr le_rfl⟩
    have hshift : f = ((ExtendedMantissa.ofMantissaAndAccuracy (2 ^ 53) .exact).shiftRightOne,
        t + 1) := by
      rw [hf, heq, hvalue, hcanonical.quantum_eq, shiftToExponent, add_sub_cancel_left]
      rfl
    rw [hshift, heq]
    exact ⟨hcanonical, hvalue.symm⟩

theorem shiftToTargetExponent_zero (t : ℤ) :
    (shiftToTargetExponent Format.binary64 0 t .exact).1.mantissa = 0 := by
  have hfloor := ((Represents.exact 0).shiftRight
    (Format.binary64.targetExponent (totalExponent 0 t) - t).toNat).floor
  simp only [Nat.cast_zero, zero_div, Int.floor_zero] at hfloor
  exact_mod_cast hfloor.symm

/-- What was shifted down to its target exponent is rounded to the nearest
double. -/
theorem roundWithAccuracy_exact (s : Sign) {m : ℕ} {e : ℤ} (hm : 0 < m)
    (he : e ≤ quantum (m * 2 ^ e)) :
    let f := roundWithAccuracy Format.binary64 s m e .exact
    InForm f ∧ number f = some (signed s (nearest (m * 2 ^ e))) := by
  intro f
  have hpos : (0 : ℚ) < m * 2 ^ e := by positivity
  obtain ⟨n, hn⟩ := Int.le.dest he
  set q : ℚ := m * 2 ^ e with hq
  have hquanta : (m : ℚ) / 2 ^ n = q / 2 ^ quantum q := by
    rw [hq, ← hn, zpow_add₀ (by norm_num), zpow_natCast, mul_comm ((2 : ℚ) ^ e),
      mul_div_mul_right _ _ (by positivity)]
  have hfirst : shiftToTargetExponent Format.binary64 m e .exact
      = (ExtendedMantissa.ofMantissaAndAccuracy m .exact >>> n, quantum q) := by
    have hamount : (quantum q - e).toNat = n := by omega
    rw [shiftToTargetExponent, targetExponent_eq_quantum hm, shiftToExponent, ← hq, hamount, hn]
  have hrounded := ((Represents.exact m).shiftRight n).roundedMantissa
  set r := (ExtendedMantissa.ofMantissaAndAccuracy m .exact >>> n).roundedMantissa with hr
  rw [hquanta] at hrounded
  have hnearest : nearest q = r * 2 ^ quantum q := by
    rw [nearest, ← hrounded, Int.cast_natCast]
  have hf : f = let g := shiftToTargetExponent Format.binary64 r (quantum q) .exact
      if h : g.1.mantissa = 0 then .zero s
      else .finite s g.1.mantissa g.2 (Nat.pos_of_ne_zero h) := by
    show roundWithAccuracy Format.binary64 s m e .exact = _
    simp only [roundWithAccuracy, hfirst, ← hr]
  rw [hf, hnearest]
  rcases Nat.eq_zero_or_pos r with hzero | hrpos
  · have hmantissa := shiftToTargetExponent_zero (quantum q)
    simp only [hzero, hmantissa]
    simp [InForm, number]
  · have hle : r ≤ 2 ^ 53 := by
      have hwhole := nearestWhole_quanta_le hpos
      omega
    have hfull : quantum q = -1074 ∨ 2 ^ 52 ≤ r := by
      rcases (le_quantum q).eq_or_lt with heq | hlt
      · exact .inl heq.symm
      · have hwhole := le_nearestWhole_quanta hpos hlt
        right
        omega
    obtain ⟨hcanonical, hvalue⟩ :=
      shiftToTargetExponent_exact hrpos hle (le_quantum q) hfull
    simp only [dif_neg hcanonical.pos.ne']
    exact ⟨hcanonical, by rw [number, hvalue]⟩

end Graticule.Binary64
