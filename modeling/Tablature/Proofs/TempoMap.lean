import Tablature.Playback.Play

namespace Tablature

section Definitions

variable (f : Option Float → Option Float)

/-- The tempo of a chord sequence changed. The change is told of an unset tempo as well, so that it may set one or
take one away. -/
def ChordSequence.mapTempo (q : ChordSequence) : ChordSequence :=
  { q with bpm := f q.bpm }

def Content.mapTempos : Content → Content
  | tab columns => tab columns
  | chords sequences => chords (sequences.map (ChordSequence.mapTempo f))

def Subsection.mapTempos (b : Subsection) : Subsection :=
  { b with bpm := f b.bpm, content := b.content.mapTempos f }

def Section.mapTempos (s : Section) : Section :=
  { s with subsections := s.subsections.map (Subsection.mapTempos f) }

/-- The document with each of its tempos changed. Measure lines keep theirs: those are texts. -/
def Document.mapTempos (d : Document) : Document :=
  { d with bpm := f d.bpm, sections := d.sections.map (Section.mapTempos f) }

/-- A tab has no tempos here. What its measure lines say of tempos is text in their columns, which a change of
tempos does not touch. -/
def Content.tempos : Content → List (Option Float)
  | tab _ => []
  | chords sequences => sequences.map ChordSequence.bpm

def Subsection.tempos (b : Subsection) : List (Option Float) :=
  b.bpm :: b.content.tempos

def Section.tempos (s : Section) : List (Option Float) :=
  s.subsections.flatMap Subsection.tempos

/-- The tempos of the document itself, of its subsections and of their chord sequences, set or not. -/
def Document.tempos (d : Document) : List (Option Float) :=
  d.bpm :: d.sections.flatMap Section.tempos

theorem Content.tempos_mapTempos (c : Content) : (c.mapTempos f).tempos = c.tempos.map f := by
  cases c with
  | tab columns => rfl
  | chords sequences =>
    change (sequences.map (ChordSequence.mapTempo f)).map ChordSequence.bpm = (sequences.map ChordSequence.bpm).map f
    rw [List.map_map, List.map_map]
    rfl

theorem Subsection.tempos_mapTempos (b : Subsection) : (b.mapTempos f).tempos = b.tempos.map f :=
  congrArg (f b.bpm :: ·) (b.content.tempos_mapTempos f)

theorem Section.tempos_mapTempos (s : Section) : (s.mapTempos f).tempos = s.tempos.map f := by
  rw [tempos, tempos, mapTempos, List.flatMap_map, List.map_flatMap]
  exact congrArg (s.subsections.flatMap ·) (funext (Subsection.tempos_mapTempos f))

/-- The tempos of a changed document are the changed tempos, in the same order. Whatever a change makes true of each
tempo is true of all tempos afterwards. -/
theorem Document.tempos_mapTempos (d : Document) : (d.mapTempos f).tempos = d.tempos.map f := by
  rw [tempos, tempos, mapTempos, List.flatMap_map, List.map_cons, List.map_flatMap]
  exact congrArg (fun inner => f d.bpm :: d.sections.flatMap inner) (funext (Section.tempos_mapTempos f))

end Definitions

section Identity

theorem Content.mapTempos_id (c : Content) : c.mapTempos (fun bpm => bpm) = c := by
  cases c with
  | tab columns => rfl
  | chords sequences => exact congrArg chords (List.map_id' sequences)

theorem Subsection.mapTempos_id (b : Subsection) : b.mapTempos (fun bpm => bpm) = b := by
  rw [mapTempos, b.content.mapTempos_id]

theorem Section.mapTempos_id (s : Section) : s.mapTempos (fun bpm => bpm) = s := by
  rw [mapTempos, List.map_id'' Subsection.mapTempos_id]

theorem Document.mapTempos_id (d : Document) : d.mapTempos (fun bpm => bpm) = d := by
  rw [mapTempos, List.map_id'' Section.mapTempos_id]

end Identity

section Agreement

variable {f g : Option Float → Option Float}

/-- A change matters only through what it does to the tempos that are there. The lemmas below carry this from a
content up to its document. -/
theorem Content.mapTempos_congr {c : Content} (same : ∀ bpm ∈ c.tempos, f bpm = g bpm) :
    c.mapTempos f = c.mapTempos g := by
  cases c with
  | tab columns => rfl
  | chords sequences =>
    refine congrArg chords (List.map_congr_left fun q member => ?_)
    rw [ChordSequence.mapTempo, ChordSequence.mapTempo, same q.bpm (List.mem_map_of_mem member)]

theorem Subsection.mapTempos_congr {b : Subsection} (same : ∀ bpm ∈ b.tempos, f bpm = g bpm) :
    b.mapTempos f = b.mapTempos g := by
  obtain ⟨own, inner⟩ := List.forall_mem_cons.mp same
  rw [mapTempos, mapTempos, own, Content.mapTempos_congr inner]

theorem Section.mapTempos_congr {s : Section} (same : ∀ bpm ∈ s.tempos, f bpm = g bpm) :
    s.mapTempos f = s.mapTempos g := by
  have subsections : s.subsections.map (Subsection.mapTempos f) = s.subsections.map (Subsection.mapTempos g) :=
    List.map_congr_left fun b member =>
      Subsection.mapTempos_congr fun bpm inner => same bpm (List.mem_flatMap_of_mem member inner)
  rw [mapTempos, mapTempos, subsections]

/-- Two changes that agree on each tempo of a document give the same document. -/
theorem Document.mapTempos_congr {d : Document} (same : ∀ bpm ∈ d.tempos, f bpm = g bpm) :
    d.mapTempos f = d.mapTempos g := by
  obtain ⟨own, inner⟩ := List.forall_mem_cons.mp same
  have sections : d.sections.map (Section.mapTempos f) = d.sections.map (Section.mapTempos g) :=
    List.map_congr_left fun s member =>
      Section.mapTempos_congr fun bpm inside => inner bpm (List.mem_flatMap_of_mem member inside)
  rw [mapTempos, mapTempos, own, sections]

theorem Document.mapTempos_fixed {d : Document} (fixed : ∀ bpm ∈ d.tempos, f bpm = bpm) : d.mapTempos f = d :=
  (mapTempos_congr fixed).trans d.mapTempos_id

end Agreement

section Comparison

/-- Two maps over one list compare as the same if they do at each item. Of doubles this is not equality: NaN is not
the same as itself, and the zeros are the same. -/
theorem map_beq_map_iff {α β : Type} [BEq β] {f g : α → β} {items : List α} :
    (items.map f == items.map g) = true ↔ ∀ a ∈ items, (f a == g a) = true := by
  induction items with
  | nil => exact ⟨fun _ => nofun, fun _ => rfl⟩
  | cons a items ih =>
    change (f a == g a && items.map f == items.map g) = true ↔ _
    rw [Bool.and_eq_true, ih, List.forall_mem_cons]

theorem forall_mem_flatMap {α β : Type} {p : β → Prop} {f : α → List β} {items : List α} :
    (∀ b ∈ items.flatMap f, p b) ↔ ∀ a ∈ items, ∀ b ∈ f a, p b :=
  ⟨fun all _ inItems b inA => all b (List.mem_flatMap_of_mem inItems inA), fun all b member =>
    let ⟨_, inItems, inA⟩ := List.mem_flatMap.mp member
    all _ inItems b inA⟩

variable {f g : Option Float → Option Float}

/-- Everything but the tempo is as it was, so that the tempos alone decide. Texts and counts are the same as
themselves, which doubles are not. -/
theorem ChordSequence.mapTempo_beq (q : ChordSequence) :
    (q.mapTempo f == q.mapTempo g) = (f q.bpm == g q.bpm) := by
  change (q.id == q.id && (q.repetitions == q.repetitions && (f q.bpm == g q.bpm && (q.pattern == q.pattern &&
    q.chords == q.chords)))) = _
  simp only [beq_self_eq_true, Bool.true_and, Bool.and_true]

theorem Content.mapTempos_beq_iff (c : Content) :
    (c.mapTempos f == c.mapTempos g) = true ↔ ∀ bpm ∈ c.tempos, (f bpm == g bpm) = true := by
  cases c with
  | tab columns =>
    change (columns == columns) = true ↔ _
    exact ⟨fun _ => nofun, fun _ => beq_self_eq_true columns⟩
  | chords sequences =>
    change (sequences.map (ChordSequence.mapTempo f) == sequences.map (ChordSequence.mapTempo g)) = true ↔ _
    rw [map_beq_map_iff, tempos, List.forall_mem_map]
    simp only [ChordSequence.mapTempo_beq]

theorem Subsection.mapTempos_beq_iff (b : Subsection) :
    (b.mapTempos f == b.mapTempos g) = true ↔ ∀ bpm ∈ b.tempos, (f bpm == g bpm) = true := by
  change (b.id == b.id && (f b.bpm == g b.bpm && (b.repetitions == b.repetitions &&
    b.content.mapTempos f == b.content.mapTempos g))) = true ↔ _
  simp only [beq_self_eq_true, Bool.true_and]
  rw [Bool.and_eq_true, Content.mapTempos_beq_iff, tempos, List.forall_mem_cons]

theorem Section.mapTempos_beq_iff (s : Section) :
    (s.mapTempos f == s.mapTempos g) = true ↔ ∀ bpm ∈ s.tempos, (f bpm == g bpm) = true := by
  change (s.id == s.id && (s.title == s.title && s.subsections.map (Subsection.mapTempos f) ==
    s.subsections.map (Subsection.mapTempos g))) = true ↔ _
  simp only [beq_self_eq_true, Bool.true_and]
  rw [map_beq_map_iff, tempos, forall_mem_flatMap]
  simp only [Subsection.mapTempos_beq_iff]

/-- Two ways to change the tempos give documents that compare as the same if they agree on those of the document. -/
theorem Document.mapTempos_beq_iff (d : Document) :
    (d.mapTempos f == d.mapTempos g) = true ↔ ∀ bpm ∈ d.tempos, (f bpm == g bpm) = true := by
  change (d.title == d.title && (f d.bpm == g d.bpm && (d.sections.map (Section.mapTempos f) ==
    d.sections.map (Section.mapTempos g) && d.progression == d.progression))) = true ↔ _
  simp only [beq_self_eq_true, Bool.true_and, Bool.and_true]
  rw [Bool.and_eq_true, map_beq_map_iff, tempos, List.forall_mem_cons, forall_mem_flatMap]
  simp only [Section.mapTempos_beq_iff]

/-- The form in which the comparison is used: a change that no tempo shows gives a document that compares as the
same. -/
theorem Document.mapTempos_beq {d : Document} (same : ∀ bpm ∈ d.tempos, (f bpm == g bpm) = true) :
    (d.mapTempos f == d.mapTempos g) = true :=
  d.mapTempos_beq_iff.mpr same

end Comparison

section Playing

variable {f : Option Float → Option Float}
  (same : ∀ override enclosing, resolveTempo (f override) enclosing = resolveTempo override enclosing)

theorem mapIdx_of_map {α β γ : Type} (f : Nat → β → γ) (g : α → β) (items : List α) :
    (items.map g).mapIdx f = items.mapIdx fun i a => f i (g a) := by
  rw [List.mapIdx_eq_zipIdx_map, List.mapIdx_eq_zipIdx_map, List.zipIdx_map, List.map_map]
  rfl

include same

/-- A tempo is used only by resolving it against the one around it. If the change keeps what it resolves to, each
unit plays as before, from the innermost outwards. -/
theorem ChordSequence.part_mapTempo (cap : Option Nat) (enclosing : Float) (s t i : Nat) (q : ChordSequence) :
    (q.mapTempo f).part cap enclosing s t i = q.part cap enclosing s t i := by
  simp only [part, mapTempo, same]

theorem Subsection.pass_mapTempos (cap : Option Nat) (enclosing : Float) (s t : Nat) (b : Subsection) :
    (b.mapTempos f).pass cap enclosing s t = b.pass cap enclosing s t := by
  obtain ⟨id, bpm, repetitions, content⟩ := b
  cases content with
  | tab columns => simp only [pass, mapTempos, Content.mapTempos, same]
  | chords sequences =>
    have parts (bpm : Float) : (sequences.map (ChordSequence.mapTempo f)).mapIdx (fun i q => q.part cap bpm s t i) =
        sequences.mapIdx fun i q => q.part cap bpm s t i := by
      rw [mapIdx_of_map]
      simp only [ChordSequence.part_mapTempo same]
    simp only [pass, mapTempos, Content.mapTempos, same, chordPass, parts]

theorem Section.pass_mapTempos (cap : Option Nat) (global : Float) (s : Nat) (unit : Section) :
    (unit.mapTempos f).pass cap global s = unit.pass cap global s := by
  have body : (unit.mapTempos f).body cap global s = unit.body cap global s := by
    unfold Section.body mapTempos
    rw [mapIdx_of_map]
    simp only [Subsection.part, Subsection.pass_mapTempos same]
    rfl
  unfold Section.pass
  rw [body]
  rfl

omit same in
/-- Sections are found by their ids, which no change of tempos touches: the same one is found, at the same place,
with its tempos changed. -/
theorem Document.section?_mapTempos (d : Document) (id : String) :
    (d.mapTempos f).section? id = (d.section? id).map fun (s, unit) => (s, unit.mapTempos f) := by
  unfold section? mapTempos
  rw [List.zipIdx_map, List.find?_map, Option.map_map, Option.map_map]
  rfl

theorem ProgressionEntry.part_mapTempos (d : Document) (options : Options) (entry : ProgressionEntry) :
    entry.part (d.mapTempos f) options = entry.part d options := by
  have global : (d.mapTempos f).globalTempo options = d.globalTempo options := same d.bpm _
  unfold part
  rw [d.section?_mapTempos, global]
  cases d.section? entry.sectionId with
  | none => rfl
  | some found =>
    obtain ⟨s, unit⟩ := found
    change ((unit.mapTempos f).pass options.cap _ s).times _ = _
    rw [Section.pass_mapTempos same]

/-- Tempos that resolve alike play alike. -/
theorem Document.play_mapTempos (d : Document) (progression : List ProgressionEntry) (options : Options) :
    (d.mapTempos f).play progression options = d.play progression options := by
  unfold play
  simp only [ProgressionEntry.part_mapTempos same]

omit same in
/-- A stored progression is kept, and the one that stands in for none is made of ids and titles. -/
theorem Document.effectiveProgression_mapTempos (d : Document) :
    (d.mapTempos f).effectiveProgression = d.effectiveProgression := by
  unfold effectiveProgression mapTempos
  rw [List.map_map]
  rfl

end Playing

end Tablature
