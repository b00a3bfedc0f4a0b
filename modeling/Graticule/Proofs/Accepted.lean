import Graticule.Proofs.Circle
import Graticule.Proofs.Precedence

/-!
# Which settings can be used

A circle needs at least one step, and the tolerance of a simplification has to
be finite and not below zero. Files and the environment are checked for this,
value by value, and the values that stand at the start pass the check too. What
the program itself supplies is taken unchecked, and nothing replaces it. So the
earliest value it has supplied decides, and if there is none, all is well.
-/

namespace Graticule

/-- The earliest value the program itself supplies. -/
def overridden {β : Type} (part : Layer → Option β) (loads : List Load) : Option β :=
  loads.findSome? fun
    | .overrides layer => part layer
    | _ => none

/-! ## What is checked -/

theorem Layer.one_le_of_checkSteps {n : Int} {m : Nat}
    (h : (checkSteps n).toOption = some m) : 1 ≤ m := by
  unfold checkSteps at h
  split at h
  · next hn =>
      cases h
      omega
  · cases h

theorem Settings.one_le_of_readCircleSteps {text : String} {n : Nat}
    (h : (readCircleSteps text).toOption = some n) : 1 ≤ n := by
  simp only [readCircleSteps] at h
  split at h
  · split at h
    · next hn =>
        cases h
        exact hn.1
    · cases h
  · cases h

/-- A tolerance that is accepted. -/
def Settings.UsableTolerance (x : Float) : Prop := x.isFinite = true ∧ 0.0 ≤ x

theorem Settings.usable_of_checkTolerance {x y : Float}
    (h : (checkTolerance x).toOption = some y) : UsableTolerance y := by
  unfold checkTolerance at h
  split at h
  · next hx =>
      cases h
      simpa [UsableTolerance] using hx
  · cases h

theorem Settings.usable_of_readTolerance {text : String} {x : Float}
    (h : (readTolerance text).toOption = some x) : UsableTolerance x := by
  unfold readTolerance at h
  split at h
  · exact usable_of_checkTolerance h
  · cases h

/-! ## What is not -/

theorem Source.eq_override_of_le {source : Source}
    (h : Source.override.precedence ≤ source.precedence) : source = .override := by
  cases source <;> first | rfl | exact absurd h (by decide)

namespace Key

variable {β : Type} (k : Key β) {read : SettingsReader} {loads : List Load} {s : Settings}

theorem findSome?_override (loads : List Load) :
    (loads.filter fun l => l.source = .override).findSome? (k.offer read)
      = overridden k.ofLayer loads := by
  induction loads with
  | nil => rfl
  | cons l loads ih =>
      cases l with
      | file content => exact ih
      | environment values => exact ih
      | overrides layer =>
          rw [List.filter_cons_of_pos (by rfl), List.findSome?_cons, ih]
          rfl

/-- If the start and all that is checked have a property, it is the program's
own value that decides whether the setting has it. -/
theorem forall_overridden {P : β → Prop} (hinitial : P (k.setting Settings.initial).value)
    (hmember : ∀ v b, k.ofMember v = some b → P b)
    (htext : ∀ text b, k.ofText text = some b → P b)
    (h : Settings.initial.loadAll read loads = .ok s) :
    P (k.setting s).value ↔ ∀ b ∈ overridden k.ofLayer loads, P b := by
  have hdecided := k.decidedBy_offers h
  have hfirst := k.find?_offers read loads .override
  rw [k.findSome?_override] at hfirst
  cases ho : overridden k.ofLayer loads with
  | some b =>
      rw [ho] at hfirst
      have hmem := List.mem_of_find?_eq_some hfirst
      have hsource := Source.eq_override_of_le (hdecided.highest _ hmem)
      have hearliest := hdecided.earliest (List.ne_nil_of_mem hmem)
      rw [hsource, hfirst] at hearliest
      cases hearliest
      simp
  | none =>
      rw [ho] at hfirst
      refine iff_of_true ?_ (by simp)
      by_cases hnil : k.offers read loads = []
      · rw [hdecided.untouched hnil]
        exact hinitial
      · have hearliest := hdecided.earliest hnil
        have hmem := List.mem_of_find?_eq_some hearliest
        obtain ⟨l, -, hsource, hoffer⟩ := k.mem_offers.mp hmem
        cases l with
        | file content =>
            obtain ⟨text, -, hoffer⟩ := Option.bind_eq_some_iff.mp hoffer
            obtain ⟨members, -, hoffer⟩ := Option.bind_eq_some_iff.mp hoffer
            obtain ⟨v, -, hoffer⟩ := Option.bind_eq_some_iff.mp hoffer
            exact hmember v _ hoffer
        | environment values =>
            obtain ⟨text, -, hoffer⟩ := Option.bind_eq_some_iff.mp hoffer
            exact htext text _ hoffer
        | overrides layer =>
            have hoverride : (k.setting s).source = .override := hsource.symm
            rw [hoverride, hfirst] at hearliest
            cases hearliest

end Key

theorem Settings.one_le_circleSteps_iff {read : SettingsReader} {loads : List Load} {s : Settings}
    (h : Settings.initial.loadAll read loads = .ok s) :
    1 ≤ s.circleSteps.value ↔ ∀ n ∈ overridden Layer.circleSteps loads, 1 ≤ n := by
  refine Key.circleSteps.forall_overridden (by decide) (fun v n hv => ?_)
    (fun text n hn => one_le_of_readCircleSteps hn) h
  obtain ⟨m, -, hm⟩ := Option.bind_eq_some_iff.mp hv
  exact Layer.one_le_of_checkSteps hm

theorem Settings.usable_tolerance_iff {read : SettingsReader} {loads : List Load} {s : Settings}
    (h : Settings.initial.loadAll read loads = .ok s) :
    UsableTolerance s.tolerance.value
      ↔ ∀ x ∈ overridden Layer.tolerance loads, UsableTolerance x := by
  refine Key.tolerance.forall_overridden ⟨by decide, by decide⟩ (fun v x hv => ?_)
    (fun text x hx => usable_of_readTolerance hx) h
  obtain ⟨y, -, hy⟩ := Option.bind_eq_some_iff.mp hv
  exact usable_of_checkTolerance hy

/-! ## Settings that can be used -/

/-- The settings after any number of loads, whatever reads the files, can be used
unless the program has supplied a value itself that cannot: its earliest number of
steps is zero, or its earliest tolerance is not finite or below zero. A circle with
no number of steps of its own fails in the first case and in no other. -/
theorem Settings.usable_iff (read : SettingsReader) {loads : List Load} {s : Settings}
    (h : Settings.initial.loadAll read loads = .ok s) :
    (1 ≤ s.defaults.circleSteps ↔ ∀ n ∈ overridden Layer.circleSteps loads, 1 ≤ n)
    ∧ (UsableTolerance s.defaults.tolerance
        ↔ ∀ x ∈ overridden Layer.tolerance loads, UsableTolerance x)
    ∧ ∀ (center : Point Float) (radius : Float),
      (s.defaults.circle center radius = .error (.tooFewSteps 0)
          ↔ overridden Layer.circleSteps loads = some 0)
      ∧ ((∃ polygon, s.defaults.circle center radius = .ok polygon)
          ↔ overridden Layer.circleSteps loads ≠ some 0) := by
  have hsteps := one_le_circleSteps_iff h
  refine ⟨hsteps, usable_tolerance_iff h, fun center radius => ?_⟩
  have hzero : overridden Layer.circleSteps loads = some 0 ↔ s.circleSteps.value = 0 := by
    cases ho : overridden Layer.circleSteps loads with
    | none =>
        have hone := hsteps.mpr (by simp [ho])
        simp only [reduceCtorEq, false_iff]
        omega
    | some n =>
        have hn : 1 ≤ s.circleSteps.value ↔ 1 ≤ n := by simpa [ho] using hsteps
        rw [Option.some.injEq]
        omega
  rw [ne_eq, hzero]
  by_cases hvalue : s.circleSteps.value = 0
  · have hfails : s.defaults.circle center radius = .error (.tooFewSteps 0) := by
      show circle center radius s.circleSteps.value _ = _
      rw [hvalue]
      exact circle_of_zero ..
    simp [hfails, hvalue]
  · obtain ⟨polygon, hpolygon⟩ :=
      circle_of_one_le center radius s.unit.value (Nat.pos_of_ne_zero hvalue)
    have hsucceeds : s.defaults.circle center radius = .ok polygon := hpolygon
    simp [hsucceeds, hvalue]

/-- Of two numbers of steps the program supplies the first is taken, so there are
circles although the second is zero. -/
theorem Settings.usable_iff_of_twelve_steps :
    ∃ s, Settings.initial.loadAll Toml.read?
        [.overrides { circleSteps := some 12 }, .overrides { circleSteps := some 0 }] = .ok s
      ∧ 1 ≤ s.defaults.circleSteps
      ∧ ∀ (center : Point Float) (radius : Float),
        ∃ polygon, s.defaults.circle center radius = .ok polygon := by
  have hloads : Settings.initial.loadAll Toml.read?
      [.overrides { circleSteps := some 12 }, .overrides { circleSteps := some 0 }]
      = .ok { Settings.initial with circleSteps := ⟨12, .override⟩ } := rfl
  obtain ⟨hsteps, -, hcircles⟩ := usable_iff Toml.read? hloads
  refine ⟨_, hloads, hsteps.mpr ?_, fun center radius => (hcircles center radius).2.mpr ?_⟩
  · intro n hn
    cases hn
    decide
  · intro h
    cases h

/-- The program can supply a number of steps and a tolerance that cannot be
used. -/
theorem Settings.unusable_of_overrides :
    ∃ s, Settings.initial.loadAll Toml.read?
        [.overrides { circleSteps := some 0, tolerance := some (-1.0) }] = .ok s
      ∧ ¬ 1 ≤ s.defaults.circleSteps ∧ ¬ UsableTolerance s.defaults.tolerance
      ∧ ∀ (center : Point Float) (radius : Float),
        s.defaults.circle center radius = .error (.tooFewSteps 0) := by
  refine ⟨_, rfl, by decide, fun h => ?_, fun center radius => rfl⟩
  exact absurd h.2 (by decide)

end Graticule
