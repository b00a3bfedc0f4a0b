import Graticule.Proofs.Binary64.Paths
import Graticule.Proofs.SliceSize

/-!
# Milestones of doubles

What is not a number spoils every sum it is added to, so once a milestone is not a
number none after it is. That decides what becomes of the two walks over milestones.

A point along a path is found unless the target is not a number, or the milestones
stop being numbers before one of them is at or past the target; then the walk runs on
past the last vertex. A slice never does, since its last vertex ends it whatever the
distances are. It is a line of less than two points when its start or the length of
the path is not a number and no milestone is past the start.

The functions of angles play no part in this.
-/

namespace Graticule.Binary64

open Float.Model
open Float.Model.UnpackedFloat hiding pack unpack

variable {x y : Float}

theorem isNaN_add (h : Scalar.isNaN x = true ∨ Scalar.isNaN y = true) :
    Scalar.isNaN (x + y) = true := by
  rw [scalar_isNaN_iff, scalar_isNaN_iff] at h
  have hsum : UnpackedFloat.add Format.binary64 x.toModel.unpack y.toModel.unpack
      = .notANumber := by
    rcases h with h | h
    · rw [unpack_of_isNaN h]
      cases y.toModel.unpack <;> rfl
    · rw [unpack_of_isNaN h]
      cases x.toModel.unpack <;> rfl
  rw [scalar_isNaN_iff]
  show (Float.ofModel (.pack (UnpackedFloat.add Format.binary64 _ _))).toModel.unpack.isNaN
    = true
  rw [hsum]
  rfl

/-- The two zeros differ as summands only when the other summand is the negative
one. -/
theorem neg_zero_add_eq (y : Float) : -0 + y = 0 + y ∨ (-0 + y = -0 ∧ 0 + y = 0) := by
  have hneg : -0 + y = Float.ofModel
      (.pack (UnpackedFloat.add Format.binary64 (.zero .negative) y.toModel.unpack)) := rfl
  have hpos : 0 + y = Float.ofModel
      (.pack (UnpackedFloat.add Format.binary64 (.zero .positive) y.toModel.unpack)) := rfl
  rw [hneg, hpos]
  cases y.toModel.unpack with
  | notANumber => exact .inl rfl
  | infinity s => exact .inl rfl
  | zero s => cases s <;> first | exact .inl rfl | exact .inr ⟨rfl, rfl⟩
  | finite s m e hm => exact .inl rfl

/-- A total is the last milestone, whatever is added up; it can only be the other
zero. -/
theorem total_eq_or (ds : List Float) :
    Scalar.total ds = ds.foldl (· + ·) 0
      ∨ Scalar.total ds = -0 ∧ ds.foldl (· + ·) 0 = 0 := by
  unfold Scalar.total
  induction ds with
  | nil => exact .inr ⟨rfl, rfl⟩
  | cons d ds ih =>
      rw [List.foldl_cons, List.foldl_cons]
      rcases neg_zero_add_eq d with hsame | ⟨hneg, hpos⟩
      · exact .inl (congrArg (ds.foldl (· + ·)) hsame)
      · rw [hneg, hpos]
        exact ih

/-- Once a milestone is not a number, the last one is not. -/
theorem isNaN_foldl {ds : List Float} {t : Float}
    (h : ∃ d ∈ ds.scanl (· + ·) t, Scalar.isNaN d = true) :
    Scalar.isNaN (ds.foldl (· + ·) t) = true := by
  induction ds generalizing t with
  | nil => simpa using h
  | cons d ds ih =>
      rw [List.scanl_cons] at h
      obtain ⟨e, he, hnan⟩ := h
      refine ih ?_
      rcases List.mem_cons.mp he with rfl | he
      · exact ⟨e + d, mem_scanl_first (e + d) ds, isNaN_add (.inl hnan)⟩
      · exact ⟨e, he, hnan⟩

end Graticule.Binary64

namespace Graticule.Angles

open Binary64

/-- Along a path of doubles there is a point at every distance that is a number, unless
the path has no points, or some milestone is not a number and none is at or past the
distance. -/
theorem along_fails_iff (f : Angles) (points : List (Point Float)) (target : Float)
    (unit : LengthUnit) :
    ((∃ q, @along Float f.trig points target unit = .ok q)
      ∨ @along Float f.trig points target unit = .error (.tooFewCoordinates "along" 1 0)
      ∨ @along Float f.trig points target unit = .error .noSuchVertex)
    ∧ (@along Float f.trig points target unit = .error (.tooFewCoordinates "along" 1 0)
      ↔ points = [])
    ∧ (@along Float f.trig points target unit = .error .noSuchVertex
      ↔ points ≠ [] ∧ (Scalar.isNaN target = true
        ∨ (∃ d ∈ (@SegmentLengths.ofPath Float f.trig points unit).milestones,
            Scalar.isNaN d = true)
          ∧ ∀ d ∈ (@SegmentLengths.ofPath Float f.trig points unit).milestones,
            ¬ target ≤ d)) := by
  have hends := @along_ends Float f.trig points target unit
  refine ⟨?_, ?_, ?_⟩
  · rcases hends with hq | ⟨-, hempty⟩ | ⟨-, hfails, -⟩
    · exact .inl hq
    · exact .inr (.inl hempty)
    · exact .inr (.inr hfails)
  · constructor
    · intro herror
      rcases hends with ⟨q, hq⟩ | ⟨hpoints, -⟩ | ⟨-, hfails, -⟩
      · rw [hq] at herror
        cases herror
      · exact hpoints
      · rw [hfails] at herror
        cases herror
    · rintro rfl
      rfl
  · constructor
    · intro herror
      rcases hends with ⟨q, hq⟩ | ⟨-, hempty⟩ | ⟨hpoints, -, hpast, hshort⟩
      · rw [hq] at herror
        cases herror
      · rw [hempty] at herror
        cases herror
      · have hlast := mem_scanl_last 0 (@legLengths Float f.trig points unit)
        rcases OrderedScalar.isNaN_of_not_le (hpast _ hlast) hshort with htarget | hlength
        · exact ⟨hpoints, .inl htarget⟩
        · exact ⟨hpoints, .inr ⟨⟨_, hlast, hlength⟩, hpast⟩⟩
    · rintro ⟨hpoints, htarget | ⟨⟨d, hd, hnan⟩, hpast⟩⟩
      · exact @along_fails Float f.trig target unit points hpoints
          (fun d _ => OrderedScalar.not_le_of_isNaN (.inl htarget))
          (OrderedScalar.not_le_of_isNaN (.inr htarget))
      · have hlength := isNaN_foldl ⟨d, hd, hnan⟩
        exact @along_fails Float f.trig target unit points hpoints hpast
          (OrderedScalar.not_le_of_isNaN (.inl hlength))

/-- A target that is not a number is nowhere, even on a path of one point. -/
theorem along_fails_of_one_point :
    along [(⟨5, 6, none⟩ : Point Float)] notANumber .kilometers = .error .noSuchVertex := by
  rfl

/-- Whatever its distances are, a slice of doubles is refused for them or it is a
line, and then it has two points exactly when its milestones pass the start, which
they do if the start and the length of the path are numbers. -/
theorem sliceWith_of_two_points_iff (f : Angles) (points : List (Point Float))
    (start stop : Float) (segments : SegmentLengths Float) :
    (∃ e, @sliceWith Float f.trig points start stop segments = .error e ∧ e ≠ .noSuchVertex)
      ∨ ∃ line, @sliceWith Float f.trig points start stop segments = .ok line
        ∧ (2 ≤ line.points.length ↔ PassesStart start segments.milestones)
        ∧ (Scalar.isNaN start = false → Scalar.isNaN segments.total = false →
          2 ≤ line.points.length) := by
  rcases @sliceWith_ends Float f.trig _ points start stop segments with
    hrefused | ⟨line, hslice, hbeyond, hpasses⟩
  · exact .inl hrefused
  · refine .inr ⟨line, hslice, hpasses, ?_⟩
    intro hstart htotal
    apply hpasses.mpr
    left
    have hlt := OrderedScalar.lt_of_not_le hstart htotal hbeyond
    refine ⟨_, mem_scanl_last 0 segments.lengths, ?_⟩
    rcases total_eq_or segments.lengths with hsame | ⟨hneg, hpos⟩
    · exact hsame ▸ hlt
    · have hzero : start < -0 := hneg ▸ hlt
      rw [hpos]
      exact OrderedScalar.lt_of_lt_of_le hzero OrderedScalar.neg_zero_le

/-- A slice whose start is not a number has its stop and nothing else. -/
theorem sliceWith_of_one_point :
    sliceWith [(⟨0, 0, none⟩ : Point Float), ⟨1, 0, none⟩] notANumber 0 ⟨[1], .kilometers⟩
      = .ok ⟨[⟨0, 0, none⟩], none⟩ := by
  rfl

end Graticule.Angles
