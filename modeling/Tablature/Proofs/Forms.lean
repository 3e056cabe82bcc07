import Tablature.Document.Encode
import Tablature.Proofs.Json.Arranging

namespace Tablature

open Json

section Slots

/-- A field that must be there, unless required fields may be lacking. -/
def Json.Slot.required (key : String) (admits : Prop → Json → Prop) : Slot :=
  ⟨key, admits, fun lacking => lacking⟩

/-- A field that may be left out where it has its default value. -/
def Json.Slot.optional (key : String) (isDefault : Prop) (admits : Prop → Json → Prop) : Slot :=
  ⟨key, admits, fun _ => isDefault⟩

/-- What is written in one way only. -/
def Json.exactly (value : Json) : Prop → Json → Prop :=
  fun _ other => other = value

/-- A tempo as it may be written: one that is not set also as a fraction or as null. -/
def TempoForm (bpm : Option Float) (value : Json) : Prop :=
  value = tempoJson bpm ∨ bpm = none ∧ (value = .float (-1.0) ∨ value = .null)

def Strum.slots (s : Strum) : List Slot :=
  [.optional "palmMute" (s.palmMute = .off) (exactly (.text s.palmMute.slot)),
    .optional "strum" (s.text = "") (exactly (.text s.text))]

def Strum.Form (lacking : Prop) (s : Strum) : Json → Prop :=
  ObjectOf lacking s.slots

def StrummingPattern.slots (p : StrummingPattern) : List Slot :=
  [.optional "id" (p.id = "") (exactly (.text p.id)),
    .required "noteLength" (exactly (.text p.noteLength)),
    .optional "strums" (p.strums = []) fun lacking => ListOf (Strum.Form lacking) p.strums]

def StrummingPattern.Form (lacking : Prop) (p : StrummingPattern) : Json → Prop :=
  ObjectOf lacking p.slots

def ChordSequence.slots (q : ChordSequence) : List Slot :=
  [.optional "id" (q.id = "") (exactly (.text q.id)),
    .optional "repetitions" (q.repetitions = 0) (exactly (.nat q.repetitions.toNat)),
    .optional "bpm" (q.bpm = none) fun _ => TempoForm q.bpm,
    .required "strummingPattern" fun lacking => q.pattern.Form lacking,
    .optional "data" (q.chords = []) (exactly (Json.texts q.chords))]

def ChordSequence.Form (lacking : Prop) (q : ChordSequence) : Json → Prop :=
  ObjectOf lacking q.slots

def Content.isEmpty : Content → Prop
  | tab columns => columns = []
  | chords sequences => sequences = []

def Content.Form (lacking : Prop) : Content → Json → Prop
  | tab columns => fun value => value = .list (columns.map Column.json)
  | chords sequences => ListOf (ChordSequence.Form lacking) sequences

/-- The fields of a subsection besides its type. -/
def Subsection.heldSlots (b : Subsection) : List Slot :=
  [.optional "id" (b.id = "") (exactly (.text b.id)),
    .optional "bpm" (b.bpm = none) fun _ => TempoForm b.bpm,
    .optional "repetitions" (b.repetitions = 0) (exactly (.nat b.repetitions.toNat)),
    .optional "data" b.content.isEmpty fun lacking => b.content.Form lacking]

def Subsection.slots (b : Subsection) : List Slot :=
  .required "type" (exactly (.text b.content.tag)) :: b.heldSlots

def Subsection.Form (lacking : Prop) (b : Subsection) : Json → Prop :=
  ObjectOf lacking b.slots

def Section.slots (s : Section) : List Slot :=
  [.required "id" (exactly (.text s.id)),
    .optional "title" (s.title = "") (exactly (.text s.title)),
    .optional "data" (s.subsections = []) fun lacking => ListOf (Subsection.Form lacking) s.subsections]

def Section.Form (lacking : Prop) (s : Section) : Json → Prop :=
  ObjectOf lacking s.slots

def ProgressionEntry.slots (e : ProgressionEntry) : List Slot :=
  [.optional "id" (e.id = "") (exactly (.text e.id)),
    .required "sectionId" (exactly (.text e.sectionId)),
    .optional "title" (e.title = "") (exactly (.text e.title)),
    .optional "repetitions" (e.repetitions = 0) (exactly (.nat e.repetitions.toNat))]

def ProgressionEntry.Form (lacking : Prop) (e : ProgressionEntry) : Json → Prop :=
  ObjectOf lacking e.slots

def Document.slots (d : Document) : List Slot :=
  [.optional "title" (d.title = "") (exactly (.text d.title)),
    .optional "bpm" (d.bpm = none) fun _ => TempoForm d.bpm,
    .optional "sections" (d.sections = []) fun lacking => ListOf (Section.Form lacking) d.sections,
    .optional "sectionProgression" (d.progression = []) fun lacking =>
      ListOf (ProgressionEntry.Form lacking) d.progression]

/-- A document as it may be stored. Where `lacking` holds, required fields may be left out at any depth. -/
def Document.Form (lacking : Prop) (d : Document) : Json → Prop :=
  ObjectOf lacking d.slots

end Slots

section Written

variable {lacking : Prop}

theorem Strum.form_json (s : Strum) : s.Form lacking s.json :=
  ⟨_, rfl, arranges_all (by simp [slots, Slot.optional]) (.cons ⟨rfl, rfl⟩ (.cons ⟨rfl, rfl⟩ .nil))⟩

theorem StrummingPattern.form_json (p : StrummingPattern) : p.Form lacking p.json :=
  ⟨_, rfl, arranges_all (by simp [slots, Slot.optional, Slot.required])
    (.cons ⟨rfl, rfl⟩ (.cons ⟨rfl, rfl⟩ (.cons ⟨rfl, listOf_map Strum.form_json p.strums⟩ .nil)))⟩

theorem ChordSequence.form_json (q : ChordSequence) : q.Form lacking q.json :=
  ⟨_, rfl, arranges_all (by simp [slots, Slot.optional, Slot.required])
    (.cons ⟨rfl, rfl⟩ (.cons ⟨rfl, rfl⟩ (.cons ⟨rfl, Or.inl rfl⟩ (.cons ⟨rfl, q.pattern.form_json⟩
      (.cons ⟨rfl, rfl⟩ .nil)))))⟩

theorem Content.form_json (c : Content) : c.Form lacking c.json := by
  cases c with
  | tab columns => exact rfl
  | chords sequences => exact listOf_map ChordSequence.form_json sequences

theorem Subsection.form_json (b : Subsection) : b.Form lacking b.json :=
  ⟨_, rfl, arranges_all (by simp [slots, heldSlots, Slot.optional, Slot.required])
    (.cons ⟨rfl, rfl⟩ (.cons ⟨rfl, rfl⟩ (.cons ⟨rfl, Or.inl rfl⟩ (.cons ⟨rfl, rfl⟩
      (.cons ⟨rfl, b.content.form_json⟩ .nil)))))⟩

theorem Section.form_json (s : Section) : s.Form lacking s.json :=
  ⟨_, rfl, arranges_all (by simp [slots, Slot.optional, Slot.required])
    (.cons ⟨rfl, rfl⟩ (.cons ⟨rfl, rfl⟩ (.cons ⟨rfl, listOf_map Subsection.form_json s.subsections⟩ .nil)))⟩

theorem ProgressionEntry.form_json (e : ProgressionEntry) : e.Form lacking e.json :=
  ⟨_, rfl, arranges_all (by simp [slots, Slot.optional, Slot.required])
    (.cons ⟨rfl, rfl⟩ (.cons ⟨rfl, rfl⟩ (.cons ⟨rfl, rfl⟩ (.cons ⟨rfl, rfl⟩ .nil))))⟩

/-- The way a document is stored is one of its forms. -/
theorem Document.form_json (d : Document) : d.Form lacking d.json :=
  ⟨_, rfl, arranges_all (by simp [slots, Slot.optional])
    (.cons ⟨rfl, rfl⟩ (.cons ⟨rfl, Or.inl rfl⟩ (.cons ⟨rfl, listOf_map Section.form_json d.sections⟩
      (.cons ⟨rfl, listOf_map ProgressionEntry.form_json d.progression⟩ .nil))))⟩

end Written

end Tablature
