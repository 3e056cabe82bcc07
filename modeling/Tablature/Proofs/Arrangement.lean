import Tablature.Proofs.Reload

namespace Tablature

open Json

/-- A tempo that can be stored as an integer and does not stand for "no tempo set". -/
structure IsStorable (bpm : Float) : Prop where
  finite : bpm.isFinite = true
  whole : IsWhole bpm
  set : (bpm == unsetTempo) = false

theorem keptTempo_storable {bpm : Option Float} (storable : ∀ x, bpm = some x → IsStorable x) :
    keptTempo bpm = bpm := by
  cases bpm with
  | none => rfl
  | some x =>
    obtain ⟨finite, _, set⟩ := storable x rfl
    rw [keptTempo, Option.filter_some, finite, bne, set]
    rfl

theorem IsStorable.reloaded {bpm : Float} (storable : IsStorable bpm) (signed : bpm ≠ -0.0) :
    reloadedTempo (some bpm) = some bpm :=
  reloadedTempo_same storable.finite storable.set signed

namespace Document

/-- A document does not depend on how its text is arranged: in which order the fields of each object come, which of
those with default values are left out, how "no tempo set" is written, and which literals stand under other keys. A
text that lacks a required field, at whatever depth, is refused. -/
theorem load_arranged (d : Document) (storable : ∀ bpm, some bpm ∈ d.tempos → IsStorable bpm) {layout : Json.Layout}
    (spaced : layout.Spaced) (value : Json) :
    (d.Form False value → ∃ loaded, loadJson (String.ofList (write layout 0 value)) = .ok loaded ∧
      (loaded == d) = true ∧ (some (-0.0) ∉ d.tempos → loaded = d)) ∧
    (d.Form True value → ¬d.Form False value → ∃ line column message,
      loadJson (String.ofList (write layout 0 value)) = .error (.document line column message)) := by
  have whole : AllWhole d.tempos := fun bpm member => (storable bpm member).whole
  constructor
  · intro form
    rcases Document.outcome 117 whole form with ⟨_, loads⟩ | ⟨lack, _⟩
    · refine ⟨_, load_read (loads layout spaced 0), ?_, fun signed => ?_⟩
      · have same : (d.mapTempos reloadedTempo == d.mapTempos fun bpm => bpm) = true :=
          mapTempos_beq fun bpm member => by
            have stored := reloadedTempo_beq bpm
            rwa [keptTempo_storable fun x isTempo => storable x (isTempo ▸ member)] at stored
        rwa [d.mapTempos_id] at same
      · refine mapTempos_fixed fun bpm member => ?_
        cases bpm with
        | none => rfl
        | some bpm => exact (storable bpm member).reloaded fun same => signed (same ▸ member)
    · exact lack.elim
  · intro form lacks
    rcases Document.outcome 117 whole form with ⟨strict, _⟩ | ⟨_, fails⟩
    · exact absurd strict lacks
    · exact load_refused (fails layout spaced 0)

/-- A document with one empty tablature. -/
def sketch : Document :=
  { bpm := some 120.0
    sections := [{ id := "s", subsections := [{ id := "t", content := .tab [] }] }]
    progression := [{ sectionId := "s" }] }

/-- The sketch in another arrangement, around these fields of its entry in the progression. -/
def sketched (entry : List (String × Json)) : Json :=
  .object [("comment", .bool true), ("sectionProgression", .list [.object entry]), ("bpm", tempoJson (some 120.0)),
    ("sections", .list [.object [
      ("data", .list [.object [("bpm", .float (-1.0)), ("draft", .null), ("type", .text "tab"), ("id", .text "t")]]),
      ("id", .text "s")]])]

theorem sketched_form {lacking : Prop} {entry : List (String × Json)}
    (form : Arranges lacking (ProgressionEntry.slots { sectionId := "s" }) entry) :
    sketch.Form lacking (sketched entry) := by
  have subsection : Subsection.Form lacking { id := "t", content := .tab [] } (.object [("bpm", .float (-1.0)),
      ("draft", .null), ("type", .text "tab"), ("id", .text "t")]) :=
    ⟨_, rfl, by constructor <;> simp [Subsection.slots, Subsection.heldSlots, Slot.required, Slot.optional, exactly,
      TempoForm, Content.isEmpty, Content.tag]⟩
  have unit : Section.Form lacking { id := "s", subsections := [{ id := "t", content := .tab [] }] } (.object [
      ("data", .list [.object [("bpm", .float (-1.0)), ("draft", .null), ("type", .text "tab"), ("id", .text "t")]]),
      ("id", .text "s")]) :=
    ⟨_, rfl, by constructor <;> simp [Section.slots, Slot.required, Slot.optional, exactly, ListOf, subsection]⟩
  exact ⟨_, rfl, by constructor <;> simp [slots, sketch, Slot.optional, TempoForm, ListOf, unit,
    ProgressionEntry.Form, ObjectOf, form]⟩

theorem sketched_whole {lacking : Prop} : Arranges lacking (ProgressionEntry.slots { sectionId := "s" })
    [("sectionId", .text "s")] := by
  constructor <;> simp [ProgressionEntry.slots, Slot.required, Slot.optional, exactly]

theorem sketched_lacks : ¬sketch.Form False (sketched []) := by
  rintro ⟨fields, same, arranged⟩
  cases same
  have progression := arranged.admitted _ (List.mem_of_getElem? (rfl : sketch.slots[3]? = some _)) _
    (List.mem_cons_of_mem _ List.mem_cons_self)
  obtain ⟨values, same, entries⟩ := progression
  cases same
  cases entries with
  | cons entry _ =>
    obtain ⟨fields, same, arranged⟩ := entry
    cases same
    exact arranged.complete _ (List.mem_cons_of_mem _ List.mem_cons_self) List.not_mem_nil

theorem sketch_storable : ∀ bpm, some bpm ∈ sketch.tempos → IsStorable bpm := by
  have tempos : sketch.tempos = [some 120.0, none] := rfl
  have bits : Binary.ofFloat 120.0 = .finite false 8444249301319680 (-46) := rfl
  intro bpm member
  rw [tempos, List.mem_pair, Option.some_inj] at member
  obtain rfl := member.resolve_right nofun
  refine ⟨rfl, fun value found => ?_, rfl⟩
  rw [bits] at found
  cases found
  exact ⟨120, by norm_num, by decide⟩

theorem sketch_signed : some (-0.0) ∉ sketch.tempos := by
  intro member
  rcases List.mem_pair.mp (member : some (-0.0) ∈ [some 120.0, none]) with same | unset
  · cases congrArg Binary.ofFloat (Option.some.inj same)
  · cases unset

theorem sketched_loads : (∀ bpm, some bpm ∈ sketch.tempos → IsStorable bpm) ∧
    loadJson (sketched [("sectionId", .text "s")]).compact = .ok sketch ∧
    ∃ line column message, loadJson (sketched []).compact = .error (.document line column message) := by
  obtain ⟨whole, _⟩ :=
    load_arranged sketch sketch_storable Json.Layout.compact_spaced (sketched [("sectionId", .text "s")])
  obtain ⟨_, lacking⟩ := load_arranged sketch sketch_storable Json.Layout.compact_spaced (sketched [])
  obtain ⟨loaded, loads, _, same⟩ := whole (sketched_form sketched_whole)
  rw [same sketch_signed] at loads
  refine ⟨sketch_storable, loads, lacking (sketched_form ?_) sketched_lacks⟩
  constructor <;> simp [ProgressionEntry.slots, Slot.required, Slot.optional]

end Document

end Tablature
