import Tablature.Proofs.LintAgreement
import Tablature.Proofs.TempoCascade
import Tablature.Proofs.TempoMap

namespace Tablature

def Content.columns : Content → List Column
  | .tab columns => columns
  | .chords _ => []

def Content.sequences : Content → List ChordSequence
  | .tab _ => []
  | .chords sequences => sequences

namespace Document

def subsections (d : Document) : List Subsection :=
  d.sections.flatMap Section.subsections

def columns (d : Document) : List Column :=
  d.subsections.flatMap fun b => b.content.columns

def sequences (d : Document) : List ChordSequence :=
  d.subsections.flatMap fun b => b.content.sequences

/-- Nothing in the document has to be replaced when it is played, and each chord sequence names its chords. -/
structure Clean (d : Document) : Prop where
  tempos : ∀ bpm, some bpm ∈ d.tempos → isUsableTempo bpm = true
  progression : ∀ entry ∈ d.progression, ∃ unit ∈ d.sections, unit.id = entry.sectionId
  measureLines : ∀ c ∈ d.columns, c.isMeasureLine = true → trim c.effects.toList = [] ∨
    ∃ bpm, c.slotTempo = some bpm ∧ ((bpm == unsetTempo) = true ∨ isUsableTempo bpm = true)
  columns : ∀ c ∈ d.columns, c.isMeasureLine = false → c.noteLength ∈ playableTags
  patterns : ∀ q ∈ d.sequences, q.pattern.noteLength ∈ playableTags
  strums : ∀ q ∈ d.sequences, ∀ strum ∈ q.pattern.strums, strum.tag?.isSome = true
  chords : ∀ q ∈ d.sequences, q.chords.length = q.pattern.strums.length

end Document

theorem flatten_mapIdx_eq_nil {α β : Type} {f : Nat → α → List β} {P : α → Prop} {xs : List α}
    (each : ∀ i x, f i x = [] ↔ P x) : (xs.mapIdx f).flatten = [] ↔ ∀ x ∈ xs, P x := by
  rw [List.eq_nil_iff_forall_not_mem]
  constructor
  · intro empty x member
    obtain ⟨i, here⟩ := List.mem_iff_getElem?.mp member
    rw [← each i x, List.eq_nil_iff_forall_not_mem]
    intro y inGroup
    exact empty y (mem_flatten_mapIdx.mpr ⟨i, x, here, inGroup⟩)
  · intro all y member
    obtain ⟨i, x, here, inGroup⟩ := mem_flatten_mapIdx.mp member
    rw [(each i x).mpr (all x (List.mem_of_getElem? here))] at inGroup
    cases inGroup

theorem lintTempo_eq_nil {owner : TempoOwner} {location : Option Location} {bpm : Option Float} :
    lintTempo owner location bpm = [] ↔ ∀ tempo, bpm = some tempo → isUsableTempo tempo = true := by
  unfold lintTempo
  cases bpm with
  | none => exact iff_of_true rfl nofun
  | some tempo =>
    by_cases usable : isUsableTempo tempo = true
    · simp only [if_pos usable, true_iff]
      rintro other same
      cases same
      exact usable
    · simp only [if_neg usable]
      exact iff_of_false nofun fun all => usable (all tempo rfl)

theorem Column.lintMeasureLine_eq_nil {c : Column} {location : Location} :
    c.lintMeasureLine location = [] ↔ trim c.effects.toList = [] ∨
      ∃ bpm, c.slotTempo = some bpm ∧ ((bpm == unsetTempo) = true ∨ isUsableTempo bpm = true) := by
  unfold lintMeasureLine
  by_cases empty : trim c.effects.toList = []
  · simp only [empty, List.isEmpty_nil, if_true, true_or]
  · have filled : ¬(trim c.effects.toList).isEmpty = true := fun isEmpty => empty (List.isEmpty_iff.mp isEmpty)
    rw [if_neg filled, or_iff_right empty]
    cases slot : c.slotTempo with
    | none => exact iff_of_false nofun nofun
    | some bpm =>
      have stored : lintTempo .measureLine (some location) (storedTempo bpm) = [] ↔
          (bpm == unsetTempo) = true ∨ isUsableTempo bpm = true := by
        rw [lintTempo_eq_nil, storedTempo]
        by_cases unset : (bpm == unsetTempo) = true
        · rw [if_pos unset]
          exact iff_of_true nofun (Or.inl unset)
        · rw [if_neg unset, or_iff_right unset]
          constructor
          · exact fun all => all bpm rfl
          · rintro usable tempo same
            cases same
            exact usable
      constructor
      · exact fun silent => ⟨bpm, rfl, stored.mp silent⟩
      · rintro ⟨other, same, fine⟩
        cases same
        exact stored.mpr fine

/-- Lint has nothing to say about the column. -/
def Column.Clean (c : Column) : Prop :=
  (c.isMeasureLine = true → trim c.effects.toList = [] ∨
    ∃ bpm, c.slotTempo = some bpm ∧ ((bpm == unsetTempo) = true ∨ isUsableTempo bpm = true)) ∧
  (c.isMeasureLine = false → c.noteLength ∈ playableTags)

theorem Column.lint_eq_nil {c : Column} {location : Location} : c.lint location = [] ↔ c.Clean := by
  unfold lint Clean
  by_cases line : c.isMeasureLine = true
  · simp only [line, if_true, forall_const, Bool.true_eq_false, false_implies, and_true]
    exact lintMeasureLine_eq_nil
  · have played : c.isMeasureLine = false := (Bool.not_eq_true _).mp line
    simp only [played, Bool.false_eq_true, if_false, false_implies, forall_const, true_and, mem_playableTags]
    cases known : NoteLength.ofTag? c.noteLength with
    | none => exact iff_of_false nofun nofun
    | some length => exact iff_of_true rfl ⟨length, rfl, isPlayable_of_known line known⟩

theorem StrummingPattern.lintLength_eq_nil {pattern : StrummingPattern} {location : Location} :
    pattern.lintLength location = [] ↔ pattern.noteLength ∈ playableTags := by
  unfold lintLength
  rw [mem_playableTags]
  cases NoteLength.ofTag? pattern.noteLength with
  | none => exact iff_of_false nofun nofun
  | some length =>
    by_cases playable : length.isPlayable = true
    · simp only [if_pos playable, true_iff]
      exact ⟨length, rfl, playable⟩
    · simp only [if_neg playable]
      refine iff_of_false nofun ?_
      rintro ⟨other, same, isPlayable⟩
      cases same
      exact playable isPlayable

namespace ChordSequence

theorem lintStrums_eq_nil {q : ChordSequence} {start : Location} :
    q.lintStrums start = [] ↔ ∀ strum ∈ q.pattern.strums, strum.tag?.isSome = true := by
  refine flatten_mapIdx_eq_nil fun k strum => ?_
  cases strum.tag? with
  | none => exact iff_of_false nofun nofun
  | some tag => exact iff_of_true rfl rfl

theorem lintChords_eq_nil {q : ChordSequence} {start : Location} :
    q.lintChords start = [] ↔ q.chords.length = q.pattern.strums.length := by
  unfold lintChords
  by_cases same : q.chords.length = q.pattern.strums.length
  · rw [if_pos same]
    exact iff_of_true rfl same
  · rw [if_neg same]
    exact iff_of_false nofun same

/-- Lint has nothing to say about the chord sequence. -/
structure Clean (q : ChordSequence) : Prop where
  tempo : ∀ bpm, q.bpm = some bpm → isUsableTempo bpm = true
  length : q.pattern.noteLength ∈ playableTags
  strums : ∀ strum ∈ q.pattern.strums, strum.tag?.isSome = true
  chords : q.chords.length = q.pattern.strums.length

theorem lint_eq_nil {q : ChordSequence} {start : Location} : q.lint start = [] ↔ q.Clean := by
  rw [lint_eq, List.append_eq_nil_iff, List.append_eq_nil_iff, List.append_eq_nil_iff, lintTempo_eq_nil,
    StrummingPattern.lintLength_eq_nil, lintStrums_eq_nil, lintChords_eq_nil]
  constructor
  · rintro ⟨⟨⟨tempo, length⟩, strums⟩, chords⟩
    exact ⟨tempo, length, strums, chords⟩
  · rintro ⟨tempo, length, strums, chords⟩
    exact ⟨⟨⟨tempo, length⟩, strums⟩, chords⟩

end ChordSequence

/-- Lint has nothing to say about the subsection. -/
structure Subsection.Clean (b : Subsection) : Prop where
  tempo : ∀ bpm, b.bpm = some bpm → isUsableTempo bpm = true
  columns : ∀ c ∈ b.content.columns, c.Clean
  sequences : ∀ q ∈ b.content.sequences, q.Clean

theorem Subsection.lint_eq_nil {b : Subsection} {s t : Nat} : b.lint s t = [] ↔ b.Clean := by
  have columnsNil (columns : List Column) :
      (columns.mapIdx fun i c => c.lint (.column s t i)).flatten = [] ↔ ∀ c ∈ columns, c.Clean :=
    flatten_mapIdx_eq_nil fun _ _ => Column.lint_eq_nil
  have sequencesNil (sequences : List ChordSequence) :
      (sequences.mapIdx fun i q => q.lint (.strum s t i 0)).flatten = [] ↔ ∀ q ∈ sequences, q.Clean :=
    flatten_mapIdx_eq_nil fun _ _ => ChordSequence.lint_eq_nil
  obtain ⟨id, bpm, repetitions, content⟩ := b
  unfold lint
  rw [List.append_eq_nil_iff, lintTempo_eq_nil]
  cases content with
  | tab columns =>
    simp only [columnsNil]
    exact ⟨fun clean => ⟨clean.1, clean.2, nofun⟩, fun clean => ⟨clean.tempo, clean.columns⟩⟩
  | chords sequences =>
    simp only [sequencesNil]
    exact ⟨fun clean => ⟨clean.1, nofun, clean.2⟩, fun clean => ⟨clean.tempo, clean.sequences⟩⟩

namespace Document

variable {d : Document}

theorem lintProgression_eq_nil :
    d.lintProgression = [] ↔ ∀ entry ∈ d.progression, ∃ unit ∈ d.sections, unit.id = entry.sectionId := by
  rw [lintProgression, List.flatMap_eq_nil_iff]
  refine forall_congr' fun entry => forall_congr' fun _ => ?_
  cases found : d.section? entry.sectionId with
  | none =>
    refine iff_of_false nofun ?_
    rintro ⟨unit, member, carries⟩
    exact section?_eq_none_iff.mp found unit member carries
  | some place =>
    obtain ⟨here, carries, _⟩ := section?_eq_some_iff.mp found
    exact iff_of_true rfl ⟨place.2, List.mem_of_getElem? here, carries⟩

theorem lint_eq_nil : d.lint = [] ↔ (∀ bpm, d.bpm = some bpm → isUsableTempo bpm = true) ∧
    (∀ entry ∈ d.progression, ∃ unit ∈ d.sections, unit.id = entry.sectionId) ∧ ∀ b ∈ d.subsections, b.Clean := by
  have subsections : (d.sections.mapIdx fun s unit =>
      (unit.subsections.mapIdx fun t b => b.lint s t).flatten).flatten = [] ↔ ∀ b ∈ d.subsections, b.Clean := by
    have each (s : Nat) (unit : Section) : (unit.subsections.mapIdx fun t b => b.lint s t).flatten = [] ↔
        ∀ b ∈ unit.subsections, b.Clean := flatten_mapIdx_eq_nil fun _ _ => Subsection.lint_eq_nil
    rw [flatten_mapIdx_eq_nil each]
    constructor
    · intro all b member
      obtain ⟨unit, inD, inUnit⟩ := List.mem_flatMap.mp member
      exact all unit inD b inUnit
    · intro all unit inD b inUnit
      exact all b (List.mem_flatMap.mpr ⟨unit, inD, inUnit⟩)
  rw [lint, List.append_eq_nil_iff, List.append_eq_nil_iff, lintTempo_eq_nil, lintProgression_eq_nil, subsections,
    and_assoc]

theorem mem_tempos {bpm : Float} : some bpm ∈ d.tempos ↔ d.bpm = some bpm ∨
    (∃ b ∈ d.subsections, b.bpm = some bpm) ∨ ∃ q ∈ d.sequences, q.bpm = some bpm := by
  have ofContent (content : Content) : some bpm ∈ content.tempos ↔ ∃ q ∈ content.sequences, q.bpm = some bpm := by
    cases content with
    | tab columns => exact iff_of_false nofun nofun
    | chords sequences => exact List.mem_map
  have ofSubsection (b : Subsection) : some bpm ∈ b.tempos ↔
      b.bpm = some bpm ∨ ∃ q ∈ b.content.sequences, q.bpm = some bpm := by
    rw [Subsection.tempos, List.mem_cons, ofContent, eq_comm]
  have flat : d.sections.flatMap Section.tempos = d.subsections.flatMap Subsection.tempos := List.flatMap_assoc.symm
  rw [tempos, List.mem_cons, eq_comm, flat, List.mem_flatMap]
  refine or_congr_right ?_
  constructor
  · rintro ⟨b, inD, inB⟩
    rcases (ofSubsection b).mp inB with own | ⟨q, inSequences, ofQ⟩
    · exact Or.inl ⟨b, inD, own⟩
    · exact Or.inr ⟨q, List.mem_flatMap.mpr ⟨b, inD, inSequences⟩, ofQ⟩
  · rintro (⟨b, inD, own⟩ | ⟨q, member, ofQ⟩)
    · exact ⟨b, inD, (ofSubsection b).mpr (Or.inl own)⟩
    · obtain ⟨b, inD, inSequences⟩ := List.mem_flatMap.mp member
      exact ⟨b, inD, (ofSubsection b).mpr (Or.inr ⟨q, inSequences, ofQ⟩)⟩

/-- Lint finds nothing exactly in clean documents. -/
theorem lint_eq_nil_iff_clean : d.lint = [] ↔ d.Clean := by
  rw [lint_eq_nil]
  constructor
  · rintro ⟨tempo, progression, subsections⟩
    have columns (c : Column) (member : c ∈ d.columns) : c.Clean := by
      obtain ⟨b, inD, inB⟩ := List.mem_flatMap.mp member
      exact (subsections b inD).columns c inB
    have sequences (q : ChordSequence) (member : q ∈ d.sequences) : q.Clean := by
      obtain ⟨b, inD, inB⟩ := List.mem_flatMap.mp member
      exact (subsections b inD).sequences q inB
    refine ⟨fun bpm member => ?_, progression, fun c member => (columns c member).1,
      fun c member => (columns c member).2, fun q member => (sequences q member).length,
      fun q member => (sequences q member).strums, fun q member => (sequences q member).chords⟩
    rcases mem_tempos.mp member with ofDocument | ⟨b, inD, ofB⟩ | ⟨q, inD, ofQ⟩
    · exact tempo bpm ofDocument
    · exact (subsections b inD).tempo bpm ofB
    · exact (sequences q inD).tempo bpm ofQ
  · intro clean
    refine ⟨fun bpm ofDocument => clean.tempos bpm (mem_tempos.mpr (Or.inl ofDocument)), clean.progression,
      fun b inD => ⟨fun bpm ofB => ?_, fun c inB => ?_, fun q inB => ?_⟩⟩
    · exact clean.tempos bpm (mem_tempos.mpr (Or.inr (Or.inl ⟨b, inD, ofB⟩)))
    · have member : c ∈ d.columns := List.mem_flatMap.mpr ⟨b, inD, inB⟩
      exact ⟨clean.measureLines c member, clean.columns c member⟩
    · have member : q ∈ d.sequences := List.mem_flatMap.mpr ⟨b, inD, inB⟩
      refine ⟨fun bpm ofQ => ?_, clean.patterns q member, clean.strums q member, clean.chords q member⟩
      exact clean.tempos bpm (mem_tempos.mpr (Or.inr (Or.inr ⟨q, member, ofQ⟩)))

end Document

end Tablature
