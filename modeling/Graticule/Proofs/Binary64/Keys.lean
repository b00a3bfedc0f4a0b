import Graticule.Proofs.Binary64.Identity
import Graticule.Proofs.Binary64.Ordered
import Graticule.Proofs.Distinct

/-!
# Patterns of one value

A double is read off a pattern of 64 bits, and many patterns may be read as one value: two are
zero, and all those with a full exponent and something in the fraction are not a number. Apart
from these every value has one pattern. So the canonical pattern of each value is a key to it.

Points are equal when the keys of their components are, and hashed by these keys and nothing
else. That is all the set of points needs.
-/

namespace Graticule

namespace Binary64

open Float.Model
open Float.Model.UnpackedFloat hiding pack unpack

variable {x y : Float}

/-! ## Reading a pattern -/

theorem toBits_ofBits (bits : UInt64) :
    (Float.ofBits bits).toBits = if isNaN bits = true then 0x7ff8000000000000 else bits := by
  have hpacked : (Float.ofBits bits).toBits.toBitVec
      = UnpackedFloat.pack Format.binary64 (UnpackedFloat.unpack Format.binary64 bits.toBitVec) :=
    rfl
  refine UInt64.toBitVec_inj.mp (hpacked.trans ((UnpackedFloat.pack_unpack _).trans ?_))
  split
  · next hparts =>
      rw [if_pos ((isNaN_iff_parts bits).mpr (of_decide_eq_true hparts))]
      rfl
  · next hparts =>
      rw [if_neg fun hnan => hparts (decide_eq_true ((isNaN_iff_parts bits).mp hnan))]

/-- Reading a pattern changes it only if it is not a number, and keeps its key. -/
theorem canonical_toBits_ofBits (bits : UInt64) :
    canonical (Float.ofBits bits).toBits = canonical bits := by
  rw [toBits_ofBits]
  split
  · next hnan =>
      have hzero : ¬ unsigned bits = 0 := by
        intro hzero
        rw [isNaN_of_unsigned_eq_zero hzero] at hnan
        cases hnan
      rw [canonical, canonical, if_neg (fun h => hzero (beq_iff_eq.mp h)), if_pos hnan]
      rfl
  · rfl

/-- Doubles are the same when they are numerically equal, or both not numbers. -/
theorem same_iff_equal :
    Scalar.same x y = true ↔ (x == y) = true ∨ x.isNaN = true ∧ y.isNaN = true := by
  rw [same_iff_value, beq_iff, ← scalar_isNaN_iff, ← scalar_isNaN_iff, isNaN_iff_value,
    isNaN_iff_value]
  cases value x <;> cases value y <;> simp [eq_comm]

/-- Two patterns are read as one value: their doubles are numerically equal, or both are not
numbers. -/
def SameValue (a b : UInt64) : Prop :=
  (Float.ofBits a == Float.ofBits b) = true
    ∨ (Float.ofBits a).isNaN = true ∧ (Float.ofBits b).isNaN = true

theorem same_ofBits_iff (a b : UInt64) :
    Scalar.same (Float.ofBits a) (Float.ofBits b) = true ↔ SameValue a b := same_iff_equal

theorem canonical_eq_iff (a b : UInt64) : canonical a = canonical b ↔ SameValue a b := by
  rw [← same_ofBits_iff, same_iff, canonical_toBits_ofBits, canonical_toBits_ofBits]

/-- Any sign and any fraction will do. -/
example : canonical 0xfff0000000000001 = canonical 0x7ff8000000000000 := by decide

end Binary64

namespace Point

open Binary64

/-! ## Keys of points -/

/-- The point whose components are read off patterns. -/
def ofPatterns (p : Point UInt64) : Point Float :=
  ⟨.ofBits p.longitude, .ofBits p.latitude, p.altitude.map .ofBits⟩

/-- The keys of the components of a point, given by their patterns. -/
def key (p : Point UInt64) : UInt64 × UInt64 × Option UInt64 :=
  (canonical p.longitude, canonical p.latitude, p.altitude.map canonical)

/-- What is hashed of the keys. -/
def hashKey (k : UInt64 × UInt64 × Option UInt64) : UInt64 :=
  mixHash (mixHash k.1 k.2.1)
    (match k.2.2 with
     | some a => mixHash 1 a
     | none => 0)

theorem sameAltitude_ofBits_iff (a b : Option UInt64) :
    sameAltitude (a.map Float.ofBits) (b.map Float.ofBits) = true ↔ Option.Rel SameValue a b := by
  cases a with
  | none =>
      cases b with
      | none => exact iff_of_true rfl .none
      | some b => exact iff_of_false Bool.false_ne_true (by rintro ⟨⟩)
  | some a =>
      cases b with
      | none => exact iff_of_false Bool.false_ne_true (by rintro ⟨⟩)
      | some b => exact (same_ofBits_iff a b).trans Option.rel_some_some.symm

theorem map_canonical_eq_iff (a b : Option UInt64) :
    a.map canonical = b.map canonical ↔ Option.Rel SameValue a b := by
  cases a with
  | none =>
      cases b with
      | none => exact iff_of_true rfl .none
      | some b => exact iff_of_false (by simp) (by rintro ⟨⟩)
  | some a =>
      cases b with
      | none => exact iff_of_false (by simp) (by rintro ⟨⟩)
      | some b =>
          rw [Option.map_some, Option.map_some, Option.some.injEq, canonical_eq_iff,
            Option.rel_some_some]

theorem ofPatterns_beq_iff (p q : Point UInt64) :
    (ofPatterns p == ofPatterns q) = true
      ↔ SameValue p.longitude q.longitude ∧ SameValue p.latitude q.latitude
        ∧ Option.Rel SameValue p.altitude q.altitude := by
  rw [beq_iff]
  exact and_congr (same_ofBits_iff _ _)
    (and_congr (same_ofBits_iff _ _) (sameAltitude_ofBits_iff _ _))

theorem key_eq_iff (p q : Point UInt64) :
    p.key = q.key
      ↔ SameValue p.longitude q.longitude ∧ SameValue p.latitude q.latitude
        ∧ Option.Rel SameValue p.altitude q.altitude := by
  rw [key, key, Prod.mk.injEq, Prod.mk.injEq, canonical_eq_iff, canonical_eq_iff,
    map_canonical_eq_iff]

theorem hash_ofPatterns (p : Point UInt64) : hash (ofPatterns p) = hashKey p.key := by
  have hdigest (bits : UInt64) : Scalar.digest (Float.ofBits bits) = canonical bits :=
    canonical_toBits_ofBits bits
  obtain ⟨longitude, latitude, altitude⟩ := p
  show mixHash (mixHash (Scalar.digest (Float.ofBits longitude))
    (Scalar.digest (Float.ofBits latitude))) _ = _
  rw [hdigest, hdigest]
  cases altitude with
  | none => rfl
  | some altitude =>
      show mixHash _ (mixHash 1 (Scalar.digest (Float.ofBits altitude))) = _
      rw [hdigest]
      rfl

/-- Two patterns have one canonical pattern exactly when they are read as one value. So
equality of points is an equivalence, points are equal exactly when their components are one
by one, and both or neither have an altitude, and then what is hashed of them is the same
too. The points kept of a list are the first of each class. -/
theorem identified_by_value :
    (∀ a b : UInt64, canonical a = canonical b ↔ SameValue a b)
      ∧ Equivalence (fun p q : Point Float => (p == q) = true)
      ∧ (∀ p q : Point UInt64,
        ((ofPatterns p == ofPatterns q) = true
            ↔ SameValue p.longitude q.longitude ∧ SameValue p.latitude q.latitude
              ∧ Option.Rel SameValue p.altitude q.altitude)
          ∧ ((ofPatterns p == ofPatterns q) = true ↔ p.key = q.key)
          ∧ hash (ofPatterns p) = hashKey p.key)
      ∧ ∀ points : List (Point Float), distinct points = firstOfEach points := by
  refine ⟨canonical_eq_iff, ⟨fun _ => BEq.rfl, BEq.symm, BEq.trans⟩, ?_,
    distinct_eq_firstOfEach⟩
  intro p q
  refine ⟨ofPatterns_beq_iff p q, ?_, hash_ofPatterns p⟩
  rw [ofPatterns_beq_iff, key_eq_iff]

end Point

end Graticule
