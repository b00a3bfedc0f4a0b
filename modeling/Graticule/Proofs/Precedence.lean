import Graticule.Settings.Load
import Graticule.Proofs.Failure
import Mathlib

/-!
# Settings are decided by precedence

Which value a setting has after any number of loads depends on what the loads
offer for it and on nothing else: the source with the highest precedence wins,
and among its loads the earliest.

The four settings are told apart by a `Key`, which says where a load has a value
for one of them: the member of a file, the variable of the environment, the part
of a layer. What a load offers is read off there, without regard to how loading
goes about it. That loading takes the same values is the law a key carries, and
it is all the proofs know of the loaders. Of what reads the files they know
nothing at all: it is the same for every load, and whatever it reads is taken.

A setting is updated load by load, so the run lemma is about a fold, and it is
easiest for a setting in any state: its present value counts as one that was
offered before all others.
-/

namespace Graticule

/-! ## Loads -/

namespace Load

/-- Where the values of a load come from. -/
def source : Load → Source
  | .file _ => .file
  | .environment _ => .environment
  | .overrides _ => .override

/-- What a load supplies. -/
def layer (read : SettingsReader) : Load → Except SettingFault Layer
  | .file content => Layer.ofFile read content
  | .environment values => .ok values.layer
  | .overrides layer => .ok layer

theorem source_ne_default (l : Load) : l.source ≠ .default := by
  cases l <;> exact Source.noConfusion

end Load

/-- The settings after several loads, one after the other. -/
def Settings.loadAll (read : SettingsReader) (s : Settings) (loads : List Load) :
    Except SettingFault Settings :=
  loads.foldlM (fun t l => t.load l read) s

variable {read : SettingsReader}

/-- All a load does is to supply its layer. -/
theorem Settings.load_eq_ok {s s' : Settings} {l : Load} :
    s.load l read = .ok s'
      ↔ ∃ layer, l.layer read = .ok layer ∧ s.supply l.source layer = s' := by
  cases l with
  | file content => exact map_eq_ok
  | environment values => simp [Settings.load, Load.layer, Load.source]
  | overrides layer => simp [Settings.load, Load.layer, Load.source]

theorem Settings.loadAll_cons_eq_ok {s s' : Settings} {l : Load} {loads : List Load} :
    s.loadAll read (l :: loads) = .ok s'
      ↔ ∃ t, s.load l read = .ok t ∧ t.loadAll read loads = .ok s' := by
  rw [Settings.loadAll, List.foldlM_cons]
  exact bind_eq_ok

/-- Loads are accepted one by one, whatever was loaded before. -/
theorem Settings.exists_loadAll_eq_ok {s : Settings} {loads : List Load} :
    (∃ s', s.loadAll read loads = .ok s')
      ↔ ∀ l ∈ loads, ∃ layer, l.layer read = .ok layer := by
  induction loads generalizing s with
  | nil => exact ⟨fun _ _ h => absurd h List.not_mem_nil, fun _ => ⟨s, rfl⟩⟩
  | cons l loads ih =>
      constructor
      · rintro ⟨s', h⟩
        obtain ⟨t, hl, hrest⟩ := loadAll_cons_eq_ok.mp h
        obtain ⟨layer, hlayer, -⟩ := load_eq_ok.mp hl
        exact List.forall_mem_cons.mpr ⟨⟨layer, hlayer⟩, ih.mp ⟨s', hrest⟩⟩
      · intro h
        obtain ⟨⟨layer, hlayer⟩, hrest⟩ := List.forall_mem_cons.mp h
        obtain ⟨s', hs'⟩ := (ih (s := s.supply l.source layer)).mpr hrest
        exact ⟨s', loadAll_cons_eq_ok.mpr ⟨_, load_eq_ok.mpr ⟨layer, hlayer, rfl⟩, hs'⟩⟩

/-! ## What a file supplies -/

theorem Layer.typed_eq_ok {β : Type} {members : Toml.Members} {name : String}
    {read : Toml → Option β} {b : Option β} (h : Layer.typed members name read = .ok b) :
    (members.lookup name).bind read = b := by
  unfold Layer.typed at h
  split at h
  · next hv =>
      cases h
      rw [hv]
      rfl
  · next v hv =>
      rw [hv]
      show read v = b
      split at h
      · next b' hb => cases h; exact hb
      · cases h

theorem mapM_option_eq_ok {β γ ε : Type} {f : β → Except ε γ} {x : Option β}
    {y : Option γ} (h : x.mapM f = .ok y) : x.bind (fun b => (f b).toOption) = y := by
  cases x with
  | none => cases h; rfl
  | some b =>
      obtain ⟨c, hc, h⟩ := map_eq_ok.mp h
      subst h
      rw [Option.bind_some, hc]
      rfl

/-- A file that is accepted supplies what its members say. -/
theorem Layer.ofMembers_eq_ok {members : Toml.Members} {layer : Layer}
    (h : Layer.ofMembers members = .ok layer) :
    (members.lookup "default_unit").bind unitOf = layer.unit
      ∧ (members.lookup "circle_steps").bind
          (fun v => (stepsOf v).bind fun n => (checkSteps n).toOption) = layer.circleSteps
      ∧ (members.lookup "simplify_tolerance").bind
          (fun v => (toleranceOf v).bind fun x => (Settings.checkTolerance x).toOption)
        = layer.tolerance
      ∧ (members.lookup "simplify_high_quality").bind flagOf = layer.highQuality := by
  obtain ⟨unit, hunit, h⟩ := bind_eq_ok.mp h
  obtain ⟨steps, hsteps, h⟩ := bind_eq_ok.mp h
  obtain ⟨tolerance, htolerance, h⟩ := bind_eq_ok.mp h
  obtain ⟨flag, hflag, h⟩ := bind_eq_ok.mp h
  obtain ⟨steps', hsteps', h⟩ := bind_eq_ok.mp h
  obtain ⟨tolerance', htolerance', h⟩ := bind_eq_ok.mp h
  cases h
  refine ⟨typed_eq_ok hunit, ?_, ?_, typed_eq_ok hflag⟩
  · rw [← Option.bind_assoc, typed_eq_ok hsteps]
    exact mapM_option_eq_ok hsteps'
  · rw [← Option.bind_assoc, typed_eq_ok htolerance]
    exact mapM_option_eq_ok htolerance'

/-! ## Keys -/

/-- One of the settings, and where each kind of load has a value for it. -/
structure Key (β : Type) where
  /-- The setting itself. -/
  setting : Settings → Setting β
  /-- The name of its member in a file. -/
  member : String
  /-- The value of the member, if it is accepted. -/
  ofMember : Toml → Option β
  /-- The variable of the environment. -/
  subject : Variable
  /-- The value of the variable, if it is accepted. -/
  ofText : String → Option β
  /-- Its part of a layer. -/
  ofLayer : Layer → Option β
  /-- Before any load it has its default. -/
  setting_initial : (setting Settings.initial).source = .default
  /-- Of a layer only this part reaches the setting. -/
  setting_supply (s : Settings) (source : Source) (layer : Layer) :
    setting (s.supply source layer) = (setting s).supply source (ofLayer layer)
  /-- Files fill in this part from the member. -/
  ofLayer_ofMembers {members : Toml.Members} {layer : Layer}
    (h : Layer.ofMembers members = .ok layer) :
    (members.lookup member).bind ofMember = ofLayer layer
  /-- The environment fills in this part from the variable. -/
  ofLayer_environment (e : Environment) : ofLayer e.layer = (e subject).bind ofText

namespace Key

/-- The unit of lengths. -/
def unit : Key LengthUnit where
  setting := Settings.unit
  member := "default_unit"
  ofMember := Layer.unitOf
  subject := .unit
  ofText := LengthUnit.ofName?
  ofLayer := Layer.unit
  setting_initial := rfl
  setting_supply _ _ _ := rfl
  ofLayer_ofMembers h := (Layer.ofMembers_eq_ok h).1
  ofLayer_environment _ := rfl

/-- The number of steps of a circle. -/
def circleSteps : Key Nat where
  setting := Settings.circleSteps
  member := "circle_steps"
  ofMember v := (Layer.stepsOf v).bind fun n => (Layer.checkSteps n).toOption
  subject := .circleSteps
  ofText v := (Settings.readCircleSteps v).toOption
  ofLayer := Layer.circleSteps
  setting_initial := rfl
  setting_supply _ _ _ := rfl
  ofLayer_ofMembers h := (Layer.ofMembers_eq_ok h).2.1
  ofLayer_environment _ := rfl

/-- The tolerance of a simplification. -/
def tolerance : Key Float where
  setting := Settings.tolerance
  member := "simplify_tolerance"
  ofMember v := (Layer.toleranceOf v).bind fun x => (Settings.checkTolerance x).toOption
  subject := .tolerance
  ofText v := (Settings.readTolerance v).toOption
  ofLayer := Layer.tolerance
  setting_initial := rfl
  setting_supply _ _ _ := rfl
  ofLayer_ofMembers h := (Layer.ofMembers_eq_ok h).2.2.1
  ofLayer_environment _ := rfl

/-- Whether simplification leaves the coarser pass out. -/
def highQuality : Key Bool where
  setting := Settings.highQuality
  member := "simplify_high_quality"
  ofMember := Layer.flagOf
  subject := .highQuality
  ofText v := (Settings.readFlag v).toOption
  ofLayer := Layer.highQuality
  setting_initial := rfl
  setting_supply _ _ _ := rfl
  ofLayer_ofMembers h := (Layer.ofMembers_eq_ok h).2.2.2
  ofLayer_environment _ := rfl

variable {β : Type} (k : Key β)

/-- The value a load has for a setting. -/
def offer (read : SettingsReader) : Load → Option β
  | .file content => do
    let text ← content.bind String.fromUTF8?
    let members ← read text
    let v ← members.lookup k.member
    k.ofMember v
  | .environment values => (values k.subject).bind k.ofText
  | .overrides layer => k.ofLayer layer

/-- The values the loads have for a setting, with their sources. -/
def offers (read : SettingsReader) (loads : List Load) : List (Source × β) :=
  loads.filterMap fun l => (k.offer read l).map fun v => (l.source, v)

theorem offer_eq {l : Load} {layer : Layer} (h : l.layer read = .ok layer) :
    k.offer read l = k.ofLayer layer := by
  cases l with
  | file content =>
      simp only [Load.layer, Layer.ofFile] at h
      split at h
      · cases h
      · next text htext =>
          split at h
          · cases h
          · next members hmembers =>
              simp only [offer, htext, hmembers, Option.bind_eq_bind, Option.bind_some]
              exact k.ofLayer_ofMembers h
  | environment values =>
      cases h
      exact (k.ofLayer_environment values).symm
  | overrides layer =>
      cases h
      rfl

theorem setting_load {s s' : Settings} {l : Load} (h : s.load l read = .ok s') :
    k.setting s' = (k.setting s).supply l.source (k.offer read l) := by
  obtain ⟨layer, hlayer, rfl⟩ := Settings.load_eq_ok.mp h
  rw [k.setting_supply, k.offer_eq hlayer]

/-- Loading comes down to updates with what is offered. -/
theorem setting_loadAll {s s' : Settings} {loads : List Load} (h : s.loadAll read loads = .ok s') :
    k.setting s' = (k.offers read loads).foldl (fun t o => t.update o.2 o.1) (k.setting s) := by
  induction loads generalizing s with
  | nil =>
      cases h
      rfl
  | cons l loads ih =>
      obtain ⟨t, hl, hrest⟩ := Settings.loadAll_cons_eq_ok.mp h
      rw [ih hrest, k.setting_load hl]
      cases ho : k.offer read l with
      | none => rw [offers, offers, List.filterMap_cons_none (by rw [ho]; rfl)]; rfl
      | some v => rw [offers, offers, List.filterMap_cons_some (by rw [ho]; rfl)]; rfl

theorem mem_offers {loads : List Load} {o : Source × β} :
    o ∈ k.offers read loads ↔ ∃ l ∈ loads, l.source = o.1 ∧ k.offer read l = some o.2 := by
  simp only [offers, List.mem_filterMap, Option.map_eq_some_iff]
  constructor
  · rintro ⟨l, hl, v, hv, rfl⟩
    exact ⟨l, hl, rfl, hv⟩
  · rintro ⟨l, hl, hsource, hv⟩
    exact ⟨l, hl, o.2, hv, Prod.ext hsource rfl⟩

/-- The earliest offer of a source is the first that its own loads make. -/
theorem find?_offers (read : SettingsReader) (loads : List Load) (source : Source) :
    (k.offers read loads).find? (fun o => o.1 = source)
      = ((loads.filter fun l => l.source = source).findSome? (k.offer read)).map
        (source, ·) := by
  induction loads with
  | nil => rfl
  | cons l loads ih =>
      by_cases hl : l.source = source <;> cases ho : k.offer read l <;>
        simp [offers, hl, ho] <;> simpa [offers] using ih

end Key

/-! ## Precedence -/

theorem Source.precedence_inj {a b : Source} (h : a.precedence = b.precedence) : a = b := by
  cases a <;> cases b <;> first | rfl | exact absurd h (by decide)

namespace Setting

variable {β : Type} {s t initial : Setting β} {os : List (Source × β)}

/-- A setting that is decided by what was offered: if nothing was, it is as it
was before; if something was, the source with the highest precedence has it, and
its earliest value. -/
structure DecidedBy (s initial : Setting β) (os : List (Source × β)) : Prop where
  untouched : os = [] → s = initial
  highest : ∀ o ∈ os, o.1.precedence ≤ s.source.precedence
  earliest : os ≠ [] → os.find? (fun o => o.1 = s.source) = some (s.source, s.value)

theorem precedence_le_update (s : Setting β) (v : β) (source : Source) :
    s.source.precedence ≤ (s.update v source).source.precedence := by
  unfold update
  split_ifs with h
  · exact h.le
  · exact le_rfl

theorem precedence_le_supply (s : Setting β) (source : Source) (v : Option β) :
    s.source.precedence ≤ (s.supply source v).source.precedence := by
  cases v with
  | none => exact le_rfl
  | some v => exact precedence_le_update s v source

/-- After a run of updates the highest source has it, when what was there before
counts as the first offer. -/
theorem foldl_update_highest (s : Setting β) (os : List (Source × β)) :
    ∀ o ∈ (s.source, s.value) :: os, o.1.precedence
      ≤ (os.foldl (fun t o => t.update o.2 o.1) s).source.precedence := by
  induction os generalizing s with
  | nil => simp
  | cons o os ih =>
      obtain ⟨hupdated, hrest⟩ := List.forall_mem_cons.mp (ih (s.update o.2 o.1))
      have hbefore := precedence_le_update s o.2 o.1
      have hoffered : o.1.precedence ≤ (s.update o.2 o.1).source.precedence := by
        unfold update
        split_ifs with h
        · exact le_rfl
        · exact not_lt.mp h
      refine List.forall_mem_cons.mpr ⟨hbefore.trans hupdated, ?_⟩
      exact List.forall_mem_cons.mpr ⟨hoffered.trans hupdated, hrest⟩

/-- After a run of updates the value is the earliest one of the source that has
it, when what was there before counts as the first offer. -/
theorem find?_foldl_update (s : Setting β) (os : List (Source × β)) :
    ((s.source, s.value) :: os).find?
        (fun o => o.1 = (os.foldl (fun t o => t.update o.2 o.1) s).source)
      = some ((os.foldl (fun t o => t.update o.2 o.1) s).source,
          (os.foldl (fun t o => t.update o.2 o.1) s).value) := by
  induction os generalizing s with
  | nil => simp
  | cons o os ih =>
      have hup := foldl_update_highest (s.update o.2 o.1) os _ List.mem_cons_self
      have hfind := ih (s.update o.2 o.1)
      rw [List.foldl_cons]
      generalize os.foldl (fun t o => t.update o.2 o.1) (s.update o.2 o.1) = last at *
      by_cases h : s.source.precedence < o.1.precedence
      · -- The update was made, so the state before it is no longer on top.
        have hu : s.update o.2 o.1 = ⟨o.2, o.1⟩ := if_pos h
        rw [hu] at hup hfind
        have hne : ¬ s.source = last.source := by
          intro heq
          rw [← heq] at hup
          exact absurd hup (not_le.mpr h)
        rw [List.find?_cons_of_neg (by simpa using hne)]
        exact hfind
      · -- It was not, so this offer is not the one that is looked for, unless an
        -- earlier one of the same source is.
        have hu : s.update o.2 o.1 = s := if_neg h
        rw [hu] at hup hfind
        by_cases heq : s.source = last.source
        · rw [List.find?_cons_of_pos (by simpa using heq)] at hfind ⊢
          exact hfind
        · have hne : ¬ o.1 = last.source := by
            intro ho
            rw [ho] at h
            exact heq (Source.precedence_inj (le_antisymm hup (not_lt.mp h)))
          rw [List.find?_cons_of_neg (by simpa using heq)] at hfind ⊢
          rw [List.find?_cons_of_neg (by simpa using hne)]
          exact hfind

/-- A run of updates from a default is decided by what it was offered. -/
theorem decidedBy_foldl_update (hs : s.source = .default) (hos : ∀ o ∈ os, o.1 ≠ .default) :
    (os.foldl (fun t o => t.update o.2 o.1) s).DecidedBy s os where
  untouched h := by
    subst h
    rfl
  highest := (List.forall_mem_cons.mp (foldl_update_highest s os)).2
  earliest h := by
    obtain ⟨o, ho⟩ := List.exists_mem_of_ne_nil os h
    have hhighest := foldl_update_highest s os o (List.mem_cons_of_mem _ ho)
    have hfind := find?_foldl_update s os
    generalize os.foldl (fun t o => t.update o.2 o.1) s = last at *
    have hne : ¬ s.source = last.source := by
      intro heq
      rw [← heq, hs] at hhighest
      have hzero : o.1.precedence = Source.default.precedence := Nat.le_zero.mp hhighest
      exact hos o ho (Source.precedence_inj hzero)
    rwa [List.find?_cons_of_neg (by simpa using hne)] at hfind

/-- Lists with the same earliest offers have offers of the same sources. -/
theorem exists_mem_of_find?_eq {os' : List (Source × β)}
    (h : ∀ source, os.find? (fun o => o.1 = source) = os'.find? (fun o => o.1 = source))
    {o : Source × β} (ho : o ∈ os) : ∃ o' ∈ os', o'.1 = o.1 := by
  cases hfound : os.find? (fun o' => o'.1 = o.1) with
  | none => simpa using List.find?_eq_none.mp hfound o ho
  | some o' =>
      have hfound' := (h o.1).symm.trans hfound
      have hsource := List.find?_some hfound'
      exact ⟨o', List.mem_of_find?_eq_some hfound', by simpa using hsource⟩

/-- What decides is the earliest offer of each source. -/
theorem DecidedBy.eq_of_find?_eq {os' : List (Source × β)} (hs : s.DecidedBy initial os)
    (ht : t.DecidedBy initial os')
    (h : ∀ source, os.find? (fun o => o.1 = source) = os'.find? (fun o => o.1 = source)) :
    s = t := by
  have h' (source : Source) := (h source).symm
  by_cases hos : os = []
  · have hos' : os' = [] := by
      refine List.eq_nil_iff_forall_not_mem.mpr fun o ho => ?_
      obtain ⟨o', ho', -⟩ := exists_mem_of_find?_eq h' ho
      exact absurd (hos ▸ ho') List.not_mem_nil
    rw [hs.untouched hos, ht.untouched hos']
  · obtain ⟨o, ho⟩ := List.exists_mem_of_ne_nil os hos
    obtain ⟨o', ho', -⟩ := exists_mem_of_find?_eq h ho
    have hsFind := hs.earliest hos
    have htFind := ht.earliest (List.ne_nil_of_mem ho')
    -- Each of the two winning sources has offers on both sides.
    obtain ⟨a, ha, haSource⟩ :=
      exists_mem_of_find?_eq h (List.mem_of_find?_eq_some hsFind)
    obtain ⟨b, hb, hbSource⟩ :=
      exists_mem_of_find?_eq h' (List.mem_of_find?_eq_some htFind)
    have hle := ht.highest a ha
    have hge := hs.highest b hb
    rw [haSource] at hle
    rw [hbSource] at hge
    have hsource : s.source = t.source := Source.precedence_inj (le_antisymm hle hge)
    rw [h, hsource, htFind] at hsFind
    cases s
    cases t
    cases hsource
    cases hsFind
    rfl

end Setting

/-! ## Any number of loads -/

namespace Key

variable {β : Type} (k : Key β) {loads loads' : List Load} {s s' : Settings}

theorem decidedBy_offers (h : Settings.initial.loadAll read loads = .ok s) :
    (k.setting s).DecidedBy (k.setting Settings.initial) (k.offers read loads) := by
  rw [k.setting_loadAll h]
  refine Setting.decidedBy_foldl_update k.setting_initial fun o ho => ?_
  obtain ⟨l, -, hsource, -⟩ := k.mem_offers.mp ho
  exact hsource ▸ l.source_ne_default

/-- Loads of different sources can change places. -/
theorem setting_eq_of_filter_eq (h : Settings.initial.loadAll read loads = .ok s)
    (h' : Settings.initial.loadAll read loads' = .ok s')
    (heq : ∀ source, loads'.filter (fun l => l.source = source)
      = loads.filter (fun l => l.source = source)) :
    k.setting s' = k.setting s := by
  refine (k.decidedBy_offers h').eq_of_find?_eq (k.decidedBy_offers h) fun source => ?_
  rw [k.find?_offers, k.find?_offers, heq]

theorem precedence_le_load {l : Load} (h : s.load l read = .ok s') :
    (k.setting s).source.precedence ≤ (k.setting s').source.precedence := by
  rw [k.setting_load h]
  exact Setting.precedence_le_supply ..

end Key

theorem Settings.eq_of_setting_eq {s t : Settings} (hunit : s.unit = t.unit)
    (hsteps : s.circleSteps = t.circleSteps) (htolerance : s.tolerance = t.tolerance)
    (hflag : s.highQuality = t.highQuality) : s = t := by
  cases s
  cases t
  cases hunit
  cases hsteps
  cases htolerance
  cases hflag
  rfl

/-- After any number of loads each setting is decided by what they offer for it,
whatever reads the files. Loads of different sources can change places, and no load,
whatever the settings are, gives a setting to a source of lower precedence. -/
theorem Settings.loadAll_decidedBy (read : SettingsReader) {loads : List Load} {s : Settings}
    (h : Settings.initial.loadAll read loads = .ok s) :
    (s.unit.DecidedBy Settings.initial.unit (Key.unit.offers read loads)
      ∧ s.circleSteps.DecidedBy Settings.initial.circleSteps (Key.circleSteps.offers read loads)
      ∧ s.tolerance.DecidedBy Settings.initial.tolerance (Key.tolerance.offers read loads)
      ∧ s.highQuality.DecidedBy Settings.initial.highQuality
          (Key.highQuality.offers read loads))
    ∧ (∀ loads' : List Load,
        (∀ source, loads'.filter (fun l => l.source = source)
          = loads.filter (fun l => l.source = source)) →
        Settings.initial.loadAll read loads' = .ok s)
    ∧ ∀ (l : Load) (t t' : Settings), t.load l read = .ok t' →
        t.unit.source.precedence ≤ t'.unit.source.precedence
        ∧ t.circleSteps.source.precedence ≤ t'.circleSteps.source.precedence
        ∧ t.tolerance.source.precedence ≤ t'.tolerance.source.precedence
        ∧ t.highQuality.source.precedence ≤ t'.highQuality.source.precedence := by
  refine ⟨⟨Key.unit.decidedBy_offers h, Key.circleSteps.decidedBy_offers h,
    Key.tolerance.decidedBy_offers h, Key.highQuality.decidedBy_offers h⟩, ?_, ?_⟩
  · intro loads' heq
    have haccepted : ∀ l ∈ loads', ∃ layer, l.layer read = .ok layer := by
      intro l hl
      have hfilter : l ∈ loads'.filter (fun l' => l'.source = l.source) := by simp [hl]
      rw [heq] at hfilter
      exact Settings.exists_loadAll_eq_ok.mp ⟨s, h⟩ l (List.mem_filter.mp hfilter).1
    obtain ⟨s', h'⟩ := Settings.exists_loadAll_eq_ok.mpr haccepted
    have hs : s' = s := Settings.eq_of_setting_eq (Key.unit.setting_eq_of_filter_eq h h' heq)
      (Key.circleSteps.setting_eq_of_filter_eq h h' heq)
      (Key.tolerance.setting_eq_of_filter_eq h h' heq)
      (Key.highQuality.setting_eq_of_filter_eq h h' heq)
    rw [h', hs]
  · intro l t t' hload
    exact ⟨Key.unit.precedence_le_load hload, Key.circleSteps.precedence_le_load hload,
      Key.tolerance.precedence_le_load hload, Key.highQuality.precedence_le_load hload⟩

/-- The environment comes first, with a number of steps that cannot be read; the
file that comes after it has a flag too, and the program sets the unit. -/
theorem Settings.loadAll_decidedBy_of_three_loads :
    ∃ (loads : List Load) (s : Settings), Settings.initial.loadAll Toml.read? loads = .ok s
      ∧ Key.highQuality.offers Toml.read? loads = [(.environment, true), (.file, false)]
      ∧ s.highQuality.DecidedBy Settings.initial.highQuality
          (Key.highQuality.offers Toml.read? loads)
      ∧ s.highQuality = ⟨true, .environment⟩ ∧ s.circleSteps = ⟨64, .default⟩ := by
  let text := "simplify_high_quality = false"
  have htext : String.fromUTF8? text.toUTF8 = some text := by cbv
  have hmembers : Toml.read? text = some [("simplify_high_quality", .boolean false)] := by cbv
  have hfile : (Load.file (some text.toUTF8)).layer Toml.read?
      = .ok { highQuality := some false } := by
    simp only [Load.layer, Layer.ofFile, Option.bind_some, htext, hmembers]
    rfl
  let values : Environment := fun v =>
    if v = .circleSteps then some "many" else if v = .highQuality then some "yes" else none
  have hsteps : (Settings.readCircleSteps "many").toOption = none := by cbv
  have hflag : (Settings.readFlag "yes").toOption = some true := by cbv
  have hvalues : (Load.environment values).layer Toml.read?
      = .ok { highQuality := some true } := by
    simp only [Load.layer, Environment.layer, values, reduceCtorEq, if_true, if_false,
      Option.bind_some, Option.bind_none, hsteps, hflag]
  let loads : List Load :=
    [.environment values, .file (some text.toUTF8), .overrides { unit := some .miles }]
  have hloads : Settings.initial.loadAll Toml.read? loads = .ok
      { Settings.initial with
        unit := ⟨.miles, .override⟩
        highQuality := ⟨true, .environment⟩ } := by
    refine loadAll_cons_eq_ok.mpr ⟨_, load_eq_ok.mpr ⟨_, hvalues, rfl⟩, ?_⟩
    refine loadAll_cons_eq_ok.mpr ⟨_, load_eq_ok.mpr ⟨_, hfile, rfl⟩, ?_⟩
    rfl
  have hoffers : Key.highQuality.offers Toml.read? loads
      = [(.environment, true), (.file, false)] := by
    simp only [Key.offers, loads, List.filterMap_cons, Key.highQuality.offer_eq hvalues,
      Key.highQuality.offer_eq hfile]
    rfl
  exact ⟨loads, _, hloads, hoffers, (loadAll_decidedBy Toml.read? hloads).1.2.2.2, rfl, rfl⟩

end Graticule
