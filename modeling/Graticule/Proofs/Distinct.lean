import Graticule.Point.Distinct
import Graticule.Proofs.Identity
import Graticule.Scalar.Exact
import Mathlib.Data.List.Induction

/-!
# Distinct points are the first of each class

A pass over points asks a hash set whether an equal point has been met. It can
rely on the answer because equality of points is an equivalence and equal points
have one hash, and both rest on the scalars: identity is an equivalence, and
values that are the same share a digest.

Then the set is out of the picture. What the pass keeps is the list without the
points that equal an earlier one, for whatever the set holds at the start. With
nothing met at the start these are the points at the numbers where a class is
met for the first time, `firstOfEach`.
-/

namespace Graticule

/-- Values that are the same have one digest. -/
class Scalar.LawfulDigest (α : Type) [Scalar α] : Prop where
  digest_eq {a b : α} : Scalar.same a b = true → Scalar.digest a = Scalar.digest b

instance : Scalar.LawfulDigest Float where
  digest_eq h := (Binary64.same_iff _ _).mp h

theorem exact_same (a b : Rat) : Scalar.same a b = true ↔ a = b := beq_iff_eq

instance : Scalar.LawfulSame Rat where
  refl a := (exact_same a a).mpr rfl
  symm a b h := (exact_same b a).mpr ((exact_same a b).mp h).symm
  trans a b c h k := (exact_same a c).mpr (((exact_same a b).mp h).trans ((exact_same b c).mp k))

instance : Scalar.LawfulDigest Rat where
  digest_eq h := congrArg hash ((exact_same _ _).mp h)

namespace Point

variable {α : Type} [Scalar α]

/-! ## Points as members of a set -/

/-- Altitudes are the same: both are missing, or both are there and are the
same. -/
def sameAltitude : Option α → Option α → Bool
  | some a, some b => Scalar.same a b
  | none, none => true
  | _, _ => false

theorem sameAltitude_symm [Scalar.LawfulSame α] :
    {a b : Option α} → sameAltitude a b = true → sameAltitude b a = true
  | some a, some b, h => Scalar.LawfulSame.symm a b h
  | none, none, _ => rfl

theorem sameAltitude_trans [Scalar.LawfulSame α] :
    {a b c : Option α} → sameAltitude a b = true → sameAltitude b c = true →
      sameAltitude a c = true
  | some a, some b, some c, h, k => Scalar.LawfulSame.trans a b c h k
  | none, none, none, _, _ => rfl

theorem digest_altitude_eq [Scalar.LawfulDigest α] :
    {a b : Option α} → sameAltitude a b = true →
      (match a with
        | some a => mixHash 1 (Scalar.digest a)
        | none => 0)
      = (match b with
        | some b => mixHash 1 (Scalar.digest b)
        | none => 0)
  | some _, some _, h => congrArg (mixHash 1) (Scalar.LawfulDigest.digest_eq h)
  | none, none, _ => rfl

theorem beq_iff {p q : Point α} :
    (p == q) = true ↔ Scalar.same p.longitude q.longitude = true
      ∧ Scalar.same p.latitude q.latitude = true
      ∧ sameAltitude p.altitude q.altitude = true := by
  have hunfold : (p == q) = (Scalar.same p.longitude q.longitude
      && Scalar.same p.latitude q.latitude && sameAltitude p.altitude q.altitude) := by
    rfl
  rw [hunfold, Bool.and_eq_true, Bool.and_eq_true, and_assoc]

instance [Scalar.LawfulSame α] : EquivBEq (Point α) where
  symm {p q} h := by
    obtain ⟨hlon, hlat, halt⟩ := beq_iff.mp h
    exact beq_iff.mpr ⟨Scalar.LawfulSame.symm _ _ hlon, Scalar.LawfulSame.symm _ _ hlat,
      sameAltitude_symm halt⟩
  trans {p q r} h k := by
    obtain ⟨hlon, hlat, halt⟩ := beq_iff.mp h
    obtain ⟨klon, klat, kalt⟩ := beq_iff.mp k
    exact beq_iff.mpr ⟨Scalar.LawfulSame.trans _ _ _ hlon klon,
      Scalar.LawfulSame.trans _ _ _ hlat klat, sameAltitude_trans halt kalt⟩

instance [Scalar.LawfulDigest α] : LawfulHashable (Point α) where
  hash_eq p q h := by
    obtain ⟨hlon, hlat, halt⟩ := beq_iff.mp h
    show mixHash (mixHash (Scalar.digest p.longitude) (Scalar.digest p.latitude)) _
      = mixHash (mixHash (Scalar.digest q.longitude) (Scalar.digest q.latitude)) _
    rw [Scalar.LawfulDigest.digest_eq hlon, Scalar.LawfulDigest.digest_eq hlat]
    exact congrArg _ (digest_altitude_eq halt)

/-! ## The pass -/

theorem eraseDups_subset : (points : List (Point α)) → points.eraseDups ⊆ points
  | [] => by simp
  | p :: points => by
      rw [List.eraseDups_cons]
      exact List.cons_subset_cons p fun q hq => (List.mem_filter.mp (eraseDups_subset _ hq)).1
termination_by points => points.length
decreasing_by
  rw [List.length_cons]
  exact Nat.lt_succ_of_le (List.length_filter_le ..)

theorem pairwise_eraseDups [Scalar.LawfulSame α] :
    (points : List (Point α)) → points.eraseDups.Pairwise fun p q => (p == q) = false
  | [] => by simp
  | p :: points => by
      rw [List.eraseDups_cons, List.pairwise_cons]
      refine ⟨fun q hq => ?_, pairwise_eraseDups _⟩
      have hkept := (List.mem_filter.mp (eraseDups_subset _ hq)).2
      rw [BEq.comm]
      simpa using hkept
termination_by points => points.length
decreasing_by
  rw [List.length_cons]
  exact Nat.lt_succ_of_le (List.length_filter_le ..)

section

variable [Scalar.LawfulSame α] [Scalar.LawfulDigest α]

theorem Thinned.kept_foldl (t : Thinned α) (points : List (Point α)) :
    (points.foldl Thinned.insert t).kept
      = (points.filter fun p => !t.seen.contains p).eraseDups.reverse ++ t.kept := by
  induction points generalizing t with
  | nil => rfl
  | cons p points ih =>
      rw [List.foldl_cons, ih]
      cases hmet : t.seen.contains p with
      | true =>
          rw [List.filter_cons_of_neg (by simp [hmet]), Thinned.insert, if_pos hmet]
      | false =>
          -- What the set turns away from now on is what equals this point or was turned away
          -- before.
          have hfilter : (points.filter fun q => !(t.seen.insert p).contains q)
              = (points.filter fun q => !t.seen.contains q).filter fun q => !q == p := by
            rw [List.filter_filter]
            refine List.filter_congr fun q _ => ?_
            rw [Std.HashSet.contains_insert, Bool.not_or, BEq.comm]
          rw [List.filter_cons_of_pos (by simp [hmet]), List.eraseDups_cons, Thinned.insert,
            if_neg (by simp [hmet]), hfilter, List.reverse_cons, List.append_assoc]
          rfl

/-- The pass keeps the first of each class of equal points, in order. -/
theorem distinct_eq (points : List (Point α)) : distinct points = points.eraseDups := by
  have hfresh : (points.filter fun p => !({} : Thinned α).seen.contains p) = points :=
    List.filter_eq_self.mpr fun p _ => by simp
  rw [distinct, Thinned.kept_foldl, hfresh]
  simp

/-- No two points kept are equal. -/
theorem pairwise_distinct (points : List (Point α)) :
    (distinct points).Pairwise fun p q => (p == q) = false := by
  rw [distinct_eq]
  exact pairwise_eraseDups points

/-! ## The first of each class, by its number

The pass sees one point at a time, so this is an induction on the last one. -/

theorem Thinned.contains_foldl (t : Thinned α) (points : List (Point α)) (p : Point α) :
    (points.foldl Thinned.insert t).seen.contains p
      = (t.seen.contains p || points.any (· == p)) := by
  induction points generalizing t with
  | nil => simp
  | cons q points ih =>
      have hstep : (t.insert q).seen.contains p = (t.seen.contains p || q == p) := by
        cases hmet : t.seen.contains q with
        | false =>
            rw [Thinned.insert, if_neg (by simp [hmet]), Std.HashSet.contains_insert,
              Bool.or_comm]
        | true =>
            rw [Thinned.insert, if_pos hmet]
            cases heq : q == p with
            | false => simp
            | true =>
                rw [Std.HashSet.contains_congr heq] at hmet
                simp [hmet]
      rw [List.foldl_cons, ih, hstep, List.any_cons, Bool.or_assoc]

theorem distinct_concat (points : List (Point α)) (p : Point α) :
    distinct (points ++ [p])
      = distinct points ++ if points.any (· == p) then [] else [p] := by
  have hmet := Thinned.contains_foldl {} points p
  have hfresh : ({} : Thinned α).seen.contains p = false := by simp
  rw [hfresh, Bool.false_or] at hmet
  rw [distinct, List.foldl_append, List.foldl_cons, List.foldl_nil, Thinned.insert, hmet]
  split
  · simp [distinct]
  · simp [distinct]

end

/-- The points that none before them is equal to, in order. -/
def firstOfEach (points : List (Point α)) : List (Point α) :=
  (points.zipIdx.filter fun q => !(points.take q.2).any (· == q.1)).map Prod.fst

theorem firstOfEach_concat (points : List (Point α)) (p : Point α) :
    firstOfEach (points ++ [p])
      = firstOfEach points ++ if points.any (· == p) then [] else [p] := by
  have hbefore : points.zipIdx.filter (fun q => !((points ++ [p]).take q.2).any (· == q.1))
      = points.zipIdx.filter fun q => !(points.take q.2).any (· == q.1) := by
    refine List.filter_congr fun q hq => ?_
    have hlt := (List.mem_zipIdx' hq).1
    rw [List.take_append_of_le_length (Nat.le_of_lt hlt)]
  rw [firstOfEach, List.zipIdx_append, List.filter_append, List.map_append, hbefore, firstOfEach]
  split
  · next hmet => simp [hmet]
  · next hmet => simp [hmet]

theorem distinct_eq_firstOfEach [Scalar.LawfulSame α] [Scalar.LawfulDigest α]
    (points : List (Point α)) : distinct points = firstOfEach points := by
  induction points using List.reverseRecOn with
  | nil => rfl
  | append_singleton points p ih => rw [distinct_concat, firstOfEach_concat, ih]

/-! ## Exact points

Over the rationals equal points are one point, so keeping one of each class
loses no point. -/

instance : LawfulBEq (Point Rat) where
  eq_of_beq {p q} h := by
    obtain ⟨hlon, hlat, halt⟩ := beq_iff.mp h
    obtain ⟨longitude, latitude, altitude⟩ := p
    obtain ⟨longitude', latitude', altitude'⟩ := q
    obtain rfl : longitude = longitude' := (exact_same _ _).mp hlon
    obtain rfl : latitude = latitude' := (exact_same _ _).mp hlat
    cases altitude <;> cases altitude' <;>
      simp only [sameAltitude, Bool.false_eq_true] at halt
    · rfl
    · rw [(exact_same _ _).mp halt]

theorem mem_distinct {points : List (Point Rat)} {p : Point Rat} :
    p ∈ distinct points ↔ p ∈ points := by
  rw [distinct_eq, List.mem_eraseDups]

end Point

end Graticule
