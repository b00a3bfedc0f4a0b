import Graticule.Error
import Graticule.Proofs.Failure

/-!
# What decoding accepts

Decoding looks at the positions and the boxes of a document one after the other and gives
up at the first that has a wrong number of numbers. `entries` lists them in that order,
and does nothing else: the box of a geometry before its positions or members, the geometry
of a feature before the box of the feature, the features of a collection before the box of
the collection.

A decoder `Reports` a list of entries when it has an answer if all of them are well formed,
and else the fault of the first that is not. Decoders are put together in sequence, and
what they report is put together in the same way, so each decoder needs no more than the
decoders it calls.
-/

namespace Graticule.Document

variable {α β γ : Type}

/-- A position or a box, wherever it stands in a document. -/
inductive Entry (α : Type) where
  | position (numbers : List α)
  | box (numbers : List α)

namespace Entry

/-- Two numbers or more make a position, and four or six a box. -/
def WellFormed : Entry α → Prop
  | position numbers => 2 ≤ numbers.length
  | box numbers => numbers.length = 4 ∨ numbers.length = 6

instance : (e : Entry α) → Decidable e.WellFormed
  | position numbers => inferInstanceAs (Decidable (2 ≤ numbers.length))
  | box numbers => inferInstanceAs (Decidable (numbers.length = 4 ∨ numbers.length = 6))

/-- The fault of an entry that is not well formed. -/
def fault : Entry α → Fault
  | position numbers => .position numbers.length
  | box numbers => .box numbers.length

/-- What is said of an entry that is not well formed. -/
def refusal : Entry α → String
  | position numbers =>
    "Serialization error: position must have at least 2 elements, found "
      ++ toString numbers.length
  | box numbers =>
    "Serialization error: bbox must have 4 or 6 elements, found " ++ toString numbers.length

theorem message_fault (e : Entry α) : (Error.undecodable e.fault).message = e.refusal := by
  cases e with
  | position numbers => rfl
  | box numbers => rfl

def ofBox (bbox : Option (List α)) : List (Entry α) := bbox.toList.map box

def ofPositions (positions : List (List α)) : List (Entry α) := positions.map position

end Entry

/-! ## The order in which a document is looked at -/

mutual

-- The box of a point is an entry too, although the decoder drops it.
def Geometry.entries : Geometry α → List (Entry α)
  | .point p b => Entry.ofBox b ++ [.position p]
  | .multiPoint ps b => Entry.ofBox b ++ Entry.ofPositions ps
  | .lineString ps b => Entry.ofBox b ++ Entry.ofPositions ps
  | .multiLineString ls b => Entry.ofBox b ++ ls.flatMap Entry.ofPositions
  | .polygon rs b => Entry.ofBox b ++ rs.flatMap Entry.ofPositions
  | .multiPolygon as b =>
    Entry.ofBox b ++ as.flatMap fun rs => rs.flatMap Entry.ofPositions
  | .collection ms b => Entry.ofBox b ++ Geometry.entriesAll ms

def Geometry.entriesAll : List (Geometry α) → List (Entry α)
  | [] => []
  | g :: rest => Geometry.entries g ++ Geometry.entriesAll rest

end

def Feature.entries (f : Feature α) : List (Entry α) :=
  f.geometry.toList.flatMap Geometry.entries ++ Entry.ofBox f.bbox

/-- The positions and boxes of a document, in the order they are looked at. -/
def entries : Document α → List (Entry α)
  | .geometry g => g.entries
  | .feature f => f.entries
  | .collection c => c.features.flatMap Feature.entries ++ Entry.ofBox c.bbox

/-! ## Decoders in sequence -/

/-- The computation has an answer when all entries are well formed, and otherwise the fault
of the first that is not. -/
inductive Reports : Except Fault β → List (Entry α) → Prop where
  | answer {v : β} {es : List (Entry α)} (hnone : es.find? (¬ ·.WellFormed) = none) :
      Reports (.ok v) es
  | refusal {e : Entry α} {es : List (Entry α)}
      (hfirst : es.find? (¬ ·.WellFormed) = some e) : Reports (.error e.fault) es

namespace Reports

variable {x : Except Fault β} {es es' : List (Entry α)}

/-- What comes second is looked at only when there is nothing wrong with what comes
first. -/
theorem bind {f : β → Except Fault γ} (hx : Reports x es) (hf : ∀ v, Reports (f v) es') :
    Reports (x >>= f) (es ++ es') := by
  cases hx with
  | @answer v _ hnone =>
      have hskip : (es ++ es').find? (¬ ·.WellFormed) = es'.find? (¬ ·.WellFormed) := by
        rw [List.find?_append, hnone, Option.none_or]
      show Reports (f v) (es ++ es')
      generalize hy : f v = y
      cases hy ▸ hf v with
      | answer h => exact .answer (hskip.trans h)
      | refusal h => exact .refusal (hskip.trans h)
  | refusal hfirst => exact .refusal (by rw [List.find?_append, hfirst, Option.some_or])

theorem map (f : β → γ) (hx : Reports x es) : Reports (do return f (← x)) es := by
  cases hx with
  | answer hnone => exact .answer hnone
  | refusal hfirst => exact .refusal hfirst

theorem mapM {f : β → Except Fault γ} {part : β → List (Entry α)}
    (hf : ∀ b, Reports (f b) (part b)) (bs : List β) :
    Reports (bs.mapM f) (bs.flatMap part) := by
  induction bs with
  | nil => exact .answer rfl
  | cons b bs ih =>
      rw [List.mapM_cons, List.flatMap_cons]
      exact (hf b).bind fun v => ih.map (v :: ·)

theorem exists_ok_iff (hx : Reports x es) : (∃ v, x = .ok v) ↔ ∀ e ∈ es, e.WellFormed := by
  have hnone : es.find? (¬ ·.WellFormed) = none ↔ ∀ e ∈ es, e.WellFormed := by
    simp [List.find?_eq_none]
  rw [← hnone]
  cases hx with
  | answer h => exact iff_of_true ⟨_, rfl⟩ h
  | refusal hfirst =>
      rw [hfirst]
      exact iff_of_false (by rintro ⟨_, ⟨⟩⟩) (by rintro ⟨⟩)

theorem eq_error_iff (hx : Reports x es) (fault : Fault) :
    x = .error fault ↔ ∃ e, es.find? (¬ ·.WellFormed) = some e ∧ fault = e.fault := by
  cases hx with
  | answer h =>
      rw [h]
      exact iff_of_false (by rintro ⟨⟩) (by rintro ⟨_, ⟨⟩, _⟩)
  | refusal hfirst =>
      rw [hfirst]
      constructor
      · rintro ⟨⟩
        exact ⟨_, rfl, rfl⟩
      · rintro ⟨_, ⟨⟩, rfl⟩
        rfl

end Reports

/-! ## The decoders -/

theorem reports_decodePosition (numbers : List α) :
    Reports (decodePosition numbers) [.position numbers] := by
  match numbers with
  | [] | [_] => exact .refusal (e := .position _) rfl
  | [_, _] | _ :: _ :: _ :: _ => exact .answer (by simp [Entry.WellFormed])

theorem reports_decodeBox (bbox : Option (List α)) :
    Reports (decodeBox bbox) (Entry.ofBox bbox) := by
  match bbox with
  | none => exact .answer rfl
  | some [_, _, _, _] | some [_, _, _, _, _, _] => exact .answer rfl
  | some [] | some [_] | some [_, _] | some [_, _, _] | some [_, _, _, _, _]
  | some (_ :: _ :: _ :: _ :: _ :: _ :: _ :: _) =>
      exact .refusal (e := .box _) (by simp [Entry.ofBox, Entry.WellFormed])

theorem reports_decodePositions (positions : List (List α)) :
    Reports (decodePositions positions) (Entry.ofPositions positions) := by
  rw [Entry.ofPositions, List.map_eq_flatMap]
  exact .mapM reports_decodePosition positions

theorem reports_decodeRings (rings : List (List (List α))) :
    Reports (decodeRings rings) (rings.flatMap Entry.ofPositions) :=
  .mapM reports_decodePositions rings

mutual

theorem Geometry.reports_decode (g : Geometry α) : Reports g.decode g.entries := by
  match g with
  | .point p b =>
      rw [Geometry.decode, Geometry.entries]
      exact (reports_decodeBox b).bind fun _ => (reports_decodePosition p).map _
  | .multiPoint ps b | .lineString ps b =>
      rw [Geometry.decode, Geometry.entries]
      exact (reports_decodeBox b).bind fun _ => (reports_decodePositions ps).map _
  | .multiLineString ls b =>
      rw [Geometry.decode, Geometry.entries]
      refine (reports_decodeBox b).bind fun _ => Reports.map _ ?_
      exact .mapM (fun l => (reports_decodePositions l).map _) ls
  | .polygon rs b =>
      rw [Geometry.decode, Geometry.entries]
      exact (reports_decodeBox b).bind fun _ => (reports_decodeRings rs).map _
  | .multiPolygon as b =>
      rw [Geometry.decode, Geometry.entries]
      refine (reports_decodeBox b).bind fun _ => Reports.map _ ?_
      exact .mapM (fun rs => (reports_decodeRings rs).map _) as
  | .collection ms b =>
      rw [Geometry.decode, Geometry.entries]
      exact (reports_decodeBox b).bind fun _ => (Geometry.reports_decodeAll ms).map _

theorem Geometry.reports_decodeAll (gs : List (Geometry α)) :
    Reports (Geometry.decodeAll gs) (Geometry.entriesAll gs) := by
  match gs with
  | [] => exact .answer rfl
  | g :: rest =>
      rw [Geometry.decodeAll, Geometry.entriesAll]
      exact (Geometry.reports_decode g).bind fun _ => (Geometry.reports_decodeAll rest).map _

end

theorem Feature.reports_decode (f : Feature α) : Reports f.decode f.entries := by
  obtain ⟨geometry, properties, id, bbox⟩ := f
  cases geometry with
  | none => exact (reports_decodeBox bbox).map _
  | some g =>
      refine Reports.bind ?_ fun _ => (reports_decodeBox bbox).map _
      rw [Option.toList_some, List.flatMap_singleton]
      exact (Geometry.reports_decode g).map some

theorem reports_decode (d : Document α) : Reports d.decode d.entries := by
  cases d with
  | geometry g => exact (Geometry.reports_decode g).map _
  | feature f => exact (Feature.reports_decode f).map _
  | collection c =>
      refine Reports.map _ (Reports.bind (.mapM Feature.reports_decode c.features) fun _ => ?_)
      exact (reports_decodeBox c.bbox).map _

/-- A document can be decoded exactly when every position in it has two numbers or more
and every box four or six. Otherwise it is refused for the first in order that has not, and
what is said of it is how many numbers there are. -/
theorem decode_reports_first (d : Document α) :
    ((∃ v, d.decode = .ok v) ↔ ∀ e ∈ d.entries, e.WellFormed)
      ∧ (∀ fault, d.decode = .error fault ↔
        ∃ e, d.entries.find? (¬ ·.WellFormed) = some e ∧ fault = e.fault)
      ∧ ∀ e : Entry α, (Error.undecodable e.fault).message = e.refusal := by
  have h := reports_decode d
  exact ⟨h.exists_ok_iff, h.eq_error_iff, Entry.message_fault⟩

/-- A short position deep inside the geometry of a feature comes before the feature's box,
and after the box of the point it belongs to. -/
example :
    let point (bbox : Option (List Nat)) : Geometry Nat := .point [1] bbox
    let d (bbox : Option (List Nat)) : Document Nat := .feature
      { geometry := some (.collection [.lineString [[0, 0], [4, 3]] none, point bbox] none)
        properties := none
        id := none
        bbox := some [0, 0] }
    (d none).decode = .error (.position 1) ∧ (d (some [])).decode = .error (.box 0) :=
  ⟨rfl, rfl⟩

end Graticule.Document
