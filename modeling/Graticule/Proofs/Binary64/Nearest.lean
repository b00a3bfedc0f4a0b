import Mathlib

/-!
# The nearest double

A rational lies between two neighbouring doubles, and arithmetic answers with
the nearer of them, or with the even one when they are equally near. Here this
is a function on the rationals, with no bound on the exponents above: what is
too large is left to those who pack it.

Around `q` the doubles are the whole multiples of one power of two, the quantum
of `q`. It grows with `q`, and the step from one quantum to the next happens at
a power of two that is a multiple of both. So rounding never reverses an order,
and that is all the proofs about arithmetic need of it.
-/

namespace Graticule.Binary64

/-! ## Whole numbers -/

/-- The nearest whole number, and of two that are equally near the even one. -/
def nearestWhole (x : ℚ) : ℤ :=
  if x - ⌊x⌋ < 1 / 2 then ⌊x⌋
  else if 1 / 2 < x - ⌊x⌋ then ⌊x⌋ + 1
  else ⌊x⌋ + ⌊x⌋ % 2

@[simp]
theorem nearestWhole_intCast (n : ℤ) : nearestWhole n = n := by
  simp [nearestWhole]

theorem floor_le_nearestWhole (x : ℚ) : ⌊x⌋ ≤ nearestWhole x := by
  unfold nearestWhole
  split_ifs <;> omega

theorem nearestWhole_le_floor_add_one (x : ℚ) : nearestWhole x ≤ ⌊x⌋ + 1 := by
  unfold nearestWhole
  split_ifs <;> omega

theorem nearestWhole_mono {x y : ℚ} (h : x ≤ y) : nearestWhole x ≤ nearestWhole y := by
  rcases (Int.floor_le_floor h).eq_or_lt with heq | hlt
  · unfold nearestWhole
    rw [heq]
    split_ifs <;> first | omega | linarith
  · have hx := nearestWhole_le_floor_add_one x
    have hy := floor_le_nearestWhole y
    omega

theorem nearestWhole_neg (x : ℚ) : nearestWhole (-x) = -nearestWhole x := by
  by_cases hx : (⌊x⌋ : ℚ) = x
  · rw [← hx, ← Int.cast_neg, nearestWhole_intCast, nearestWhole_intCast]
  · have hlt : (⌊x⌋ : ℚ) < x := lt_of_le_of_ne (Int.floor_le x) hx
    have hgt := Int.lt_floor_add_one x
    have hfloor : ⌊-x⌋ = -⌊x⌋ - 1 := by
      rw [Int.floor_eq_iff]
      push_cast
      constructor <;> linarith
    unfold nearestWhole
    rw [hfloor]
    push_cast
    split_ifs <;> first | omega | linarith

theorem nearestWhole_nonneg {x : ℚ} (h : 0 ≤ x) : 0 ≤ nearestWhole x :=
  (Int.floor_nonneg.mpr h).trans (floor_le_nearestWhole x)

/-- Rounding does not pass a whole number. -/
theorem nearestWhole_le {x : ℚ} {n : ℤ} (h : x ≤ n) : nearestWhole x ≤ n := by
  have hmono := nearestWhole_mono h
  rwa [nearestWhole_intCast] at hmono

theorem le_nearestWhole {x : ℚ} {n : ℤ} (h : n ≤ x) : n ≤ nearestWhole x := by
  have hmono := nearestWhole_mono h
  rwa [nearestWhole_intCast] at hmono

/-! ## The quantum -/

theorem two_pow_add_fraction (e : ℤ) : (2 : ℚ) ^ (e + 52) = (2 ^ 52 : ℤ) * 2 ^ e := by
  rw [add_comm, zpow_add₀ (by norm_num)]
  norm_num

theorem two_pow_add_mantissa (e : ℤ) : (2 : ℚ) ^ (e + 53) = (2 ^ 53 : ℤ) * 2 ^ e := by
  rw [add_comm, zpow_add₀ (by norm_num)]
  norm_num

/-- The exponent of the power of two that the doubles around a number are whole
multiples of. -/
def quantum (q : ℚ) : ℤ := max (Int.log 2 |q| - 52) (-1074)

theorem quantum_neg (q : ℚ) : quantum (-q) = quantum q := by
  rw [quantum, abs_neg, quantum]

theorem le_quantum (q : ℚ) : -1074 ≤ quantum q := le_max_right ..

theorem quantum_mono {p q : ℚ} (hp : 0 < p) (h : p ≤ q) : quantum p ≤ quantum q := by
  have hlog : Int.log 2 p ≤ Int.log 2 q := Int.log_mono_right hp h
  rw [quantum, quantum, abs_of_pos hp, abs_of_pos (hp.trans_le h)]
  omega

theorem lt_two_pow_quantum {q : ℚ} (h : 0 < q) : q < 2 ^ (quantum q + 53) := by
  have hlog := Int.lt_zpow_succ_log_self (b := 2) (by norm_num) q
  have hexp : Int.log 2 q + 1 ≤ quantum q + 53 := by
    rw [quantum, abs_of_pos h]
    omega
  exact hlog.trans_le (zpow_le_zpow_right₀ (by norm_num) hexp)

theorem two_pow_quantum_le {q : ℚ} (h : 0 < q) (hq : -1074 < quantum q) :
    (2 : ℚ) ^ (quantum q + 52) ≤ q := by
  have hlog := Int.zpow_log_le_self (b := 2) (by norm_num) h
  have hexp : quantum q + 52 = Int.log 2 q := by
    rw [quantum, abs_of_pos h] at hq ⊢
    omega
  rw [hexp]
  exact_mod_cast hlog

/-- A mantissa and an exponent in the form doubles have: the mantissa has all its
bits unless the exponent is the least. -/
structure Canonical (m : ℕ) (e : ℤ) : Prop where
  pos : 0 < m
  lt : m < 2 ^ 53
  least : -1074 ≤ e
  full : e = -1074 ∨ 2 ^ 52 ≤ m

theorem Canonical.quantum_eq {m : ℕ} {e : ℤ} (h : Canonical m e) :
    quantum (m * 2 ^ e) = e := by
  have hm := h.pos
  have hpos : (0 : ℚ) < m * 2 ^ e := by positivity
  have hlt : (m : ℚ) * 2 ^ e < 2 ^ (e + 53) := by
    rw [two_pow_add_mantissa]
    gcongr
    exact_mod_cast h.lt
  have hlog : Int.log 2 ((m : ℚ) * 2 ^ e) < e + 53 :=
    (Int.lt_zpow_iff_log_lt (by norm_num) hpos).mp (by exact_mod_cast hlt)
  have hleast := h.least
  rw [quantum, abs_of_pos hpos]
  rcases h.full with heq | hfull
  · omega
  · have hle : (2 : ℚ) ^ (e + 52) ≤ m * 2 ^ e := by
      rw [two_pow_add_fraction]
      gcongr
      exact_mod_cast hfull
    have hlog' : e + 52 ≤ Int.log 2 ((m : ℚ) * 2 ^ e) :=
      (Int.zpow_le_iff_le_log (by norm_num) hpos).mp (by exact_mod_cast hle)
    omega

/-! ## Rounding -/

/-- The nearest multiple of the quantum. -/
def nearest (q : ℚ) : ℚ := nearestWhole (q / 2 ^ quantum q) * 2 ^ quantum q

theorem nearest_neg (q : ℚ) : nearest (-q) = -nearest q := by
  rw [nearest, nearest, quantum_neg, neg_div, nearestWhole_neg]
  push_cast
  ring

@[simp]
theorem nearest_zero : nearest 0 = 0 := by
  have hzero : nearestWhole 0 = 0 := nearestWhole_intCast 0
  simp [nearest, hzero]

theorem nearest_nonneg {q : ℚ} (h : 0 ≤ q) : 0 ≤ nearest q := by
  have hwhole : 0 ≤ nearestWhole (q / 2 ^ quantum q) := nearestWhole_nonneg (by positivity)
  rw [nearest]
  have hcast : (0 : ℚ) ≤ nearestWhole (q / 2 ^ quantum q) := by exact_mod_cast hwhole
  positivity

/-- In quanta a number is at most `2 ^ 53`. -/
theorem nearestWhole_quanta_le {q : ℚ} (h : 0 < q) :
    nearestWhole (q / 2 ^ quantum q) ≤ 2 ^ 53 := by
  refine nearestWhole_le ?_
  rw [div_le_iff₀ (by positivity), ← two_pow_add_mantissa]
  exact (lt_two_pow_quantum h).le

/-- In quanta a number is at least `2 ^ 52`, unless the quantum is the least. -/
theorem le_nearestWhole_quanta {q : ℚ} (h : 0 < q) (hq : -1074 < quantum q) :
    2 ^ 52 ≤ nearestWhole (q / 2 ^ quantum q) := by
  refine le_nearestWhole ?_
  rw [le_div_iff₀ (by positivity), ← two_pow_add_fraction]
  exact two_pow_quantum_le h hq

theorem nearest_le_two_pow {q : ℚ} (h : 0 < q) : nearest q ≤ 2 ^ (quantum q + 53) := by
  have hwhole := nearestWhole_quanta_le h
  rw [nearest, two_pow_add_mantissa]
  gcongr

theorem two_pow_le_nearest {q : ℚ} (h : 0 < q) (hq : -1074 < quantum q) :
    (2 : ℚ) ^ (quantum q + 52) ≤ nearest q := by
  have hwhole := le_nearestWhole_quanta h hq
  rw [nearest, two_pow_add_fraction]
  gcongr

theorem nearest_mono_of_pos {p q : ℚ} (hp : 0 < p) (h : p ≤ q) : nearest p ≤ nearest q := by
  have hq := hp.trans_le h
  rcases (quantum_mono hp h).eq_or_lt with heq | hlt
  · rw [nearest, nearest, heq]
    have hwhole : nearestWhole (p / 2 ^ quantum q) ≤ nearestWhole (q / 2 ^ quantum q) :=
      nearestWhole_mono (by gcongr)
    gcongr
  · -- There is a power of two between them that both round to at most or at least.
    have hbound : quantum p + 53 ≤ quantum q + 52 := by omega
    calc nearest p ≤ 2 ^ (quantum p + 53) := nearest_le_two_pow hp
      _ ≤ 2 ^ (quantum q + 52) := zpow_le_zpow_right₀ (by norm_num) hbound
      _ ≤ nearest q := two_pow_le_nearest hq (lt_of_le_of_lt (le_quantum p) hlt)

/-- Rounding keeps the order. -/
theorem nearest_mono {p q : ℚ} (h : p ≤ q) : nearest p ≤ nearest q := by
  rcases lt_or_ge 0 p with hp | hp
  · exact nearest_mono_of_pos hp h
  · rcases lt_or_ge q 0 with hq | hq
    · have hmirror := nearest_mono_of_pos (neg_pos.mpr hq) (neg_le_neg h)
      rw [nearest_neg, nearest_neg] at hmirror
      exact neg_le_neg_iff.mp hmirror
    · have hneg := nearest_nonneg (neg_nonneg.mpr hp)
      rw [nearest_neg] at hneg
      exact (neg_nonneg.mp hneg).trans (nearest_nonneg hq)

/-- What has the form of a double is its own nearest one. -/
theorem Canonical.nearest_eq {m : ℕ} {e : ℤ} (h : Canonical m e) :
    nearest (m * 2 ^ e) = m * 2 ^ e := by
  have hdiv : (m : ℚ) * 2 ^ e / 2 ^ e = (m : ℤ) := by
    rw [mul_div_cancel_right₀ _ (by positivity)]
    rfl
  rw [nearest, h.quantum_eq, hdiv, nearestWhole_intCast]
  rfl

/-- No difference is lost altogether: what is at least the least double above
zero does not round to zero. -/
theorem nearest_pos {q : ℚ} (h : (2 : ℚ) ^ (-1074 : ℤ) ≤ q) : 0 < nearest q := by
  have hcanonical : Canonical 1 (-1074) := ⟨by norm_num, by norm_num, le_rfl, .inl rfl⟩
  have hleast := hcanonical.nearest_eq
  have hmono := nearest_mono h
  rw [Nat.cast_one, one_mul] at hleast
  rw [hleast] at hmono
  exact lt_of_lt_of_le (by positivity) hmono

end Graticule.Binary64
