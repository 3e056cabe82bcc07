import Tablature.Proofs.Capping
import Tablature.Proofs.SectionLookup
import Tablature.Proofs.Unrolling

namespace Tablature

/-- The tags of the lengths that take time. -/
def playableTags : List String :=
  ["quarter", "quarterTriplet", "eighth", "eighthTriplet", "sixteenth", "sixteenthTriplet"]

theorem mem_playableTags {tag : String} :
    tag ∈ playableTags ↔ ∃ length, NoteLength.ofTag? tag = some length ∧ length.isPlayable = true := by
  constructor
  · intro member
    simp only [playableTags, List.mem_cons, List.not_mem_nil, or_false] at member
    rcases member with rfl | rfl | rfl | rfl | rfl | rfl
    · exact ⟨.quarter, rfl, rfl⟩
    · exact ⟨.quarterTriplet, rfl, rfl⟩
    · exact ⟨.eighth, rfl, rfl⟩
    · exact ⟨.eighthTriplet, rfl, rfl⟩
    · exact ⟨.sixteenth, rfl, rfl⟩
    · exact ⟨.sixteenthTriplet, rfl, rfl⟩
  · rintro ⟨length, known, playable⟩
    rw [← NoteLength.ofTag?_eq_some_iff.mp known]
    cases length with
    | measureLine => cases playable
    | _ => decide

theorem playableLength_faulty {tag : String} (faulty : tag ∉ playableTags) :
    ∃ problem, (playableLength tag).2 = some problem := by
  unfold playableLength
  cases known : NoteLength.ofTag? tag with
  | none => exact ⟨_, rfl⟩
  | some length =>
    have unplayable : ¬length.isPlayable = true := fun playable =>
      faulty (mem_playableTags.mpr ⟨length, known, playable⟩)
    simp only [if_neg unplayable]
    exact ⟨_, rfl⟩

theorem playableLength_timeless {tag other : String}
    (timeless : (playableLength tag).2 = some (.timelessLength other)) : tag = NoteLength.measureLine.tag := by
  unfold playableLength at timeless
  split at timeless
  · rename_i length known
    split at timeless
    · cases timeless
    · rename_i unplayable
      have isLine : length = .measureLine :=
        Decidable.not_not.mp fun different => unplayable (bne_iff_ne.mpr different)
      rw [← isLine]
      exact (NoteLength.ofTag?_eq_some_iff.mp known).symm
  · cases timeless

/-- Of the known lengths, a column that is played cannot have the one that takes no time. -/
theorem Column.isPlayable_of_known {c : Column} (played : ¬c.isMeasureLine = true) {length : NoteLength}
    (known : NoteLength.ofTag? c.noteLength = some length) : length.isPlayable = true := by
  rw [NoteLength.isPlayable, bne_iff_ne]
  rintro rfl
  exact played (beq_iff_eq.mpr (NoteLength.ofTag?_eq_some_iff.mp known).symm)

/-- What playing a column finds wrong with it. -/
def Column.problems (location : Location) (c : Column) : List Diagnostic :=
  if c.isMeasureLine then [] else problemAt location (playableLength c.noteLength).2

/-- The length of a chord sequence is looked at once for all its passes, at its first strum, be that there or
not. -/
def ChordSequence.problems (s t i : Nat) (q : ChordSequence) : List Diagnostic :=
  problemAt (.strum s t i 0) (playableLength q.pattern.noteLength).2

def Content.problems (s t : Nat) : Content → List Diagnostic
  | .tab columns => (columns.mapIdx fun c column => column.problems (.column s t c)).flatten
  | .chords sequences => (sequences.mapIdx fun i q => q.problems s t i).flatten

def Section.problems (s : Nat) (unit : Section) : List Diagnostic :=
  (unit.subsections.mapIdx fun t b => eachPass b.repetitions (b.content.problems s t)).flatten

def ProgressionEntry.problems (d : Document) (entry : ProgressionEntry) : List Diagnostic :=
  match d.section? entry.sectionId with
  | some (s, unit) => eachPass entry.repetitions (unit.problems s)
  | none => [⟨.missingSection entry.sectionId, none⟩]

/-- Every problem that a progression meets, in the order of playing and as often as it is met. -/
def Document.problems (d : Document) (progression : List ProgressionEntry) : List Diagnostic :=
  progression.flatMap fun entry => entry.problems d

/-- What is met in a subsection is a length, at a column or at the first strum of a chord sequence. -/
inductive Content.Meets (s t : Nat) : Content → Diagnostic → Prop
  | column {columns : List Column} {c : Nat} {column : Column} {problem : Problem}
      (atColumn : columns[c]? = some column) (met : (playableLength column.noteLength).2 = some problem)
      (played : column.isMeasureLine = false) : Meets s t (.tab columns) ⟨problem, some (.column s t c)⟩
  | sequence {sequences : List ChordSequence} {i : Nat} {q : ChordSequence} {problem : Problem}
      (atSequence : sequences[i]? = some q) (met : (playableLength q.pattern.noteLength).2 = some problem) :
      Meets s t (.chords sequences) ⟨problem, some (.strum s t i 0)⟩

theorem Content.mem_problems {s t : Nat} {content : Content} {p : Diagnostic} :
    p ∈ content.problems s t ↔ content.Meets s t p := by
  constructor
  · intro member
    obtain ⟨problem, place⟩ := p
    cases content with
    | tab columns =>
      obtain ⟨c, column, atColumn, inColumn⟩ := mem_flatten_mapIdx.mp member
      unfold Column.problems at inColumn
      split at inColumn
      · cases inColumn
      · rename_i played
        obtain ⟨met, here⟩ := mem_problemAt.mp inColumn
        cases here
        exact .column atColumn met (Bool.not_eq_true _ ▸ played)
    | chords sequences =>
      obtain ⟨i, q, atSequence, inSequence⟩ := mem_flatten_mapIdx.mp member
      obtain ⟨met, here⟩ := mem_problemAt.mp inSequence
      cases here
      exact .sequence atSequence met
  · intro meets
    cases meets with
    | column atColumn met played =>
      refine mem_flatten_mapIdx.mpr ⟨_, _, atColumn, ?_⟩
      rw [Column.problems, played, if_neg Bool.false_ne_true]
      exact mem_problemAt.mpr ⟨met, rfl⟩
    | sequence atSequence met => exact mem_flatten_mapIdx.mpr ⟨_, _, atSequence, mem_problemAt.mpr ⟨met, rfl⟩⟩

theorem Content.problems_kind {s t : Nat} {content : Content} {p : Diagnostic} (met : p ∈ content.problems s t) :
    p.kind = .unknownNoteLength := by
  cases mem_problems.mp met with
  | column _ length _ => exact playableLength_problem length
  | sequence _ length => exact playableLength_problem length

theorem Content.problems_location {s t : Nat} {content : Content} {p : Diagnostic} (met : p ∈ content.problems s t) :
    ∃ location, p.location = some location ∧ location.sectionIndex = s := by
  cases mem_problems.mp met with
  | column => exact ⟨_, rfl, rfl⟩
  | sequence => exact ⟨_, rfl, rfl⟩

theorem Cue.filterMap_report (problems : List Diagnostic) :
    (problems.map report).filterMap report? = problems := by
  rw [List.filterMap_map]
  exact List.filterMap_some

theorem Column.cues_problems (location : Location) (bpm : Float) (c : Column) :
    (c.cues location bpm).filterMap Cue.report? = c.problems location := by
  unfold cues problems
  by_cases line : c.isMeasureLine = true
  · rw [if_pos line, if_pos line]
    rfl
  · rw [if_neg line, if_neg line]
    exact Cue.filterMap_report _

theorem ChordSequence.cues_problems (enclosing : Float) (s t i : Nat) (q : ChordSequence) :
    (q.cues enclosing s t i).filterMap Cue.report? = q.problems s t i := by
  have silent (bpm : Float) : (q.strikes bpm s t i).filterMap Cue.report? = [] := by
    rw [List.filterMap_eq_nil_iff]
    intro cue member
    obtain ⟨k, bound, rfl⟩ := List.mem_mapIdx.mp member
    rfl
  rw [cues, List.filterMap_append, Cue.filterMap_report, filterMap_eachPass, silent, eachPass,
    List.flatten_replicate_nil, List.append_nil]
  rfl

theorem Content.cues_problems (bpm : Float) (s t : Nat) (content : Content) :
    (content.cues bpm s t).filterMap Cue.report? = content.problems s t := by
  cases content with
  | tab columns => simp only [cues, problems, List.filterMap_flatten, map_mapIdx, Column.cues_problems]
  | chords sequences =>
    simp only [cues, problems, List.filterMap_flatten, map_mapIdx, ChordSequence.cues_problems]

theorem Section.cues_problems (global : Float) (s : Nat) (unit : Section) :
    (unit.cues global s).filterMap Cue.report? = unit.problems s := by
  simp only [cues, problems, Subsection.cues, List.filterMap_flatten, map_mapIdx, filterMap_eachPass,
    Content.cues_problems]

theorem ProgressionEntry.cues_problems (d : Document) (global : Float) (entry : ProgressionEntry) :
    (entry.cues d global).filterMap Cue.report? = entry.problems d := by
  unfold cues problems
  cases d.section? entry.sectionId with
  | none => rfl
  | some place => exact (filterMap_eachPass ..).trans (congrArg _ (place.2.cues_problems global place.1))

namespace Document

variable {d : Document} {progression : List ProgressionEntry} {problem : Diagnostic}

/-- Without a cap, an answer to a progression reports each problem on the way once. -/
theorem play_problems (d : Document) (progression : List ProgressionEntry) (defaultBpm : Float) :
    (d.play progression ⟨defaultBpm, none⟩).diagnostics = (d.problems progression).eraseDups := by
  have found : d.program? (.whole progression) = some (.progression progression) := rfl
  have reported : (d.answer ⟨defaultBpm, none⟩ (.whole progression)).diagnostics = _ := diagnostics_found found
  have uncut := d.isCut_uncapped defaultBpm (.whole progression)
  have met := (Cue.perform_problems none (d.cues ⟨defaultBpm, none⟩ (.whole progression)) Clock.start).2 uncut
  have cues : d.cues ⟨defaultBpm, none⟩ (.whole progression) =
      progression.flatMap fun entry => entry.cues d (d.globalTempo ⟨defaultBpm, none⟩) := rfl
  have unrolled : (d.cues ⟨defaultBpm, none⟩ (.whole progression)).filterMap Cue.report? =
      d.problems progression := by
    rw [cues, List.filterMap_flatMap]
    simp only [ProgressionEntry.cues_problems]
    rfl
  rw [uncut, if_neg Bool.false_ne_true, List.append_nil] at reported
  exact reported.trans (congrArg List.eraseDups (met.trans unrolled))

theorem mem_play_problems {defaultBpm : Float} :
    problem ∈ (d.play progression ⟨defaultBpm, none⟩).diagnostics ↔ problem ∈ d.problems progression := by
  rw [play_problems, List.mem_eraseDups]

/-- The section at this position is played by an entry of the progression. -/
def Reaches (d : Document) (progression : List ProgressionEntry) (s : Nat) : Prop :=
  ∃ entry ∈ progression, ∃ unit, d.section? entry.sectionId = some (s, unit)

/-- A problem on the way is an id that no section has, or comes from a subsection of a section that is played. -/
theorem mem_problems : problem ∈ d.problems progression ↔
    (∃ entry ∈ progression, d.section? entry.sectionId = none ∧
      problem = ⟨.missingSection entry.sectionId, none⟩) ∨
    ∃ (s t : Nat) (unit : Section) (b : Subsection), d.Reaches progression s ∧ d.sections[s]? = some unit ∧
      unit.subsections[t]? = some b ∧ problem ∈ b.content.problems s t := by
  rw [problems, List.mem_flatMap]
  constructor
  · rintro ⟨entry, inProgression, met⟩
    unfold ProgressionEntry.problems at met
    cases found : d.section? entry.sectionId with
    | none =>
      rw [found] at met
      exact Or.inl ⟨entry, inProgression, found, List.mem_singleton.mp met⟩
    | some place =>
      obtain ⟨s, unit⟩ := place
      rw [found] at met
      obtain ⟨t, b, atB, inPasses⟩ := mem_flatten_mapIdx.mp (mem_eachPass.mp met)
      exact Or.inr ⟨s, t, unit, b, ⟨entry, inProgression, unit, found⟩, section?_mem found, atB,
        mem_eachPass.mp inPasses⟩
  · rintro (⟨entry, inProgression, missing, rfl⟩ | ⟨s, t, unit, b, reached, atUnit, atB, met⟩)
    · refine ⟨entry, inProgression, ?_⟩
      unfold ProgressionEntry.problems
      rw [missing]
      exact List.mem_singleton_self _
    · obtain ⟨entry, inProgression, other, found⟩ := reached
      have same : other = unit := Option.some.inj ((section?_mem found).symm.trans atUnit)
      refine ⟨entry, inProgression, ?_⟩
      unfold ProgressionEntry.problems
      rw [found, same]
      exact mem_eachPass.mpr (mem_flatten_mapIdx.mpr ⟨t, b, atB, mem_eachPass.mpr met⟩)

end Document

end Tablature
