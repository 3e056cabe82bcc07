import Tablature.Proofs.Origin
import Tablature.Proofs.SectionLookup
import Tablature.Proofs.Unrolling

namespace Tablature

/-- The content has a column or a strum. -/
def Content.HasUnit : Content → Prop
  | .tab columns => columns ≠ []
  | .chords sequences => ∃ q ∈ sequences, q.pattern.strums ≠ []

def Section.HasUnit (unit : Section) : Prop :=
  ∃ b ∈ unit.subsections, b.content.HasUnit

/-- The entry by which a section gets into a progression that was not stored. -/
def Section.entry (unit : Section) : ProgressionEntry :=
  { ProgressionEntry.playing unit.id 1 with title := unit.title }

/-- The clock that a progression leaves. -/
def Document.clockAfter (d : Document) (options : Options) (progression : List ProgressionEntry) : Clock :=
  (Part.inOrder (progression.map fun entry => entry.part d options) Clock.start).clock

theorem Cue.number_locations (start : Nat) (cues : List Cue) :
    (number start cues).map Mark.location = (cues.filterMap beat?).map Beat.location := by
  induction cues generalizing start with
  | nil => rfl
  | cons cue cues ih =>
    cases cue with
    | strike location bpm length => exact congrArg (List.cons location) (ih (start + 1))
    | bar location bpm => exact congrArg (List.cons location) (ih start)
    | report problem => exact ih start

theorem Content.beats_place {s t : Nat} {content : Content} {beat : Beat} (member : beat ∈ content.beats s t) :
    beat.location.sectionIndex = s := by
  cases content with
  | tab columns =>
    obtain ⟨c, bound, rfl⟩ := List.mem_mapIdx.mp member
    unfold Column.beat
    split <;> rfl
  | chords sequences =>
    obtain ⟨i, q, atQ, inSequence⟩ := mem_flatten_mapIdx.mp member
    obtain ⟨k, bound, rfl⟩ := List.mem_mapIdx.mp (mem_eachPass.mp inSequence)
    rfl

theorem Section.beats_place {s : Nat} {unit : Section} {beat : Beat} (member : beat ∈ unit.beats s) :
    beat.location.sectionIndex = s := by
  obtain ⟨t, b, _, inB⟩ := mem_flatten_mapIdx.mp member
  exact Content.beats_place (mem_eachPass.mp inB)

theorem Content.exists_beat {s t : Nat} {content : Content} :
    (∃ beat, beat ∈ content.beats s t) ↔ content.HasUnit := by
  cases content with
  | tab columns =>
    rw [← List.length_pos_iff_exists_mem, beats, List.length_mapIdx, List.length_pos_iff]
    rfl
  | chords sequences =>
    have plays (i : Nat) (q : ChordSequence) :
        (∃ beat, beat ∈ eachPass q.repetitions (q.beats s t i)) ↔ q.pattern.strums ≠ [] := by
      simp only [mem_eachPass]
      rw [← List.length_pos_iff_exists_mem, ChordSequence.beats, List.length_mapIdx, List.length_pos_iff]
    constructor
    · rintro ⟨beat, member⟩
      obtain ⟨i, q, atQ, inSequence⟩ := mem_flatten_mapIdx.mp member
      exact ⟨q, List.mem_of_getElem? atQ, (plays i q).mp ⟨beat, inSequence⟩⟩
    · rintro ⟨q, member, strums⟩
      obtain ⟨i, atQ⟩ := List.mem_iff_getElem?.mp member
      obtain ⟨beat, inSequence⟩ := (plays i q).mpr strums
      exact ⟨beat, mem_flatten_mapIdx.mpr ⟨i, q, atQ, inSequence⟩⟩

theorem Section.exists_beat {s : Nat} {unit : Section} : (∃ beat, beat ∈ unit.beats s) ↔ unit.HasUnit := by
  constructor
  · rintro ⟨beat, member⟩
    obtain ⟨t, b, atB, inB⟩ := mem_flatten_mapIdx.mp member
    exact ⟨b, List.mem_of_getElem? atB, Content.exists_beat.mp ⟨beat, mem_eachPass.mp inB⟩⟩
  · rintro ⟨b, member, hasUnit⟩
    obtain ⟨t, atB⟩ := List.mem_iff_getElem?.mp member
    obtain ⟨beat, inB⟩ := Content.exists_beat.mpr hasUnit
    exact ⟨beat, mem_flatten_mapIdx.mpr ⟨t, b, atB, mem_eachPass.mpr inB⟩⟩

/-- Without a cap a pass of a section keeps what the section plays. -/
theorem Section.pass_uncapped (global : Float) (s : Nat) (unit : Section) (clock : Clock) :
    (unit.pass none global s clock).cut = false ∧
    (unit.pass none global s clock).units = [⟨unit.id, unit.title, (unit.body none global s clock).units⟩] := by
  have whole : (unit.body none global s clock).cut = false := by
    rw [(unit.body_performs none global s).cut clock]
    exact Cue.perform_uncut ..
  refine ⟨whole, (Part.gather_units _ _ clock).2 fun stopped => ?_⟩
  rw [whole] at stopped
  cases stopped.1

namespace Document

variable {d : Document}

/-- The places that a timeline without a cap goes through are those of what is unrolled. -/
theorem body_locations (d : Document) (defaultBpm : Float) (r : Request) :
    ((d.answer ⟨defaultBpm, none⟩ r).body r).map Moment.location =
      ((d.cues ⟨defaultBpm, none⟩ r).filterMap Cue.beat?).map Beat.location := by
  have marks := d.body_marks ⟨defaultBpm, none⟩ r
  rw [performance, Cue.perform_uncapped] at marks
  have locations := congrArg (List.map Mark.location) marks
  rw [List.map_map, Cue.number_locations] at locations
  exact locations

theorem effective_unsaved (unsaved : d.progression = []) : d.effectiveProgression = d.sections.map Section.entry := by
  unfold effectiveProgression
  rw [unsaved]
  rfl

/-- The section indices that the entry of a section adds to a timeline. -/
def entryPlaces (d : Document) (global : Float) (unit : Section) : List Nat :=
  ((unit.entry.cues d global).filterMap Cue.beat?).map fun beat => beat.location.sectionIndex

theorem mem_entryPlaces {s i : Nat} {unit first : Section} (found : d.section? unit.id = some (s, first))
    {global : Float} : i ∈ d.entryPlaces global unit ↔ i = s ∧ first.HasUnit := by
  have once : passes unit.entry.repetitions = 1 := rfl
  have beats : (unit.entry.cues d global).filterMap Cue.beat? = first.beats s := by
    rw [entry_cues_once found once, Section.cues_beats]
  rw [entryPlaces, beats, List.mem_map]
  constructor
  · rintro ⟨beat, member, rfl⟩
    exact ⟨Section.beats_place member, Section.exists_beat.mp ⟨beat, member⟩⟩
  · rintro ⟨rfl, hasUnit⟩
    obtain ⟨beat, member⟩ := Section.exists_beat.mpr hasUnit
    exact ⟨beat, member, Section.beats_place member⟩

theorem places_unsaved (unsaved : d.progression = []) (defaultBpm : Float) :
    ((d.play d.effectiveProgression ⟨defaultBpm, none⟩).moments.dropLast.map fun m => m.location.sectionIndex) =
      d.sections.flatMap (d.entryPlaces (d.globalTempo ⟨defaultBpm, none⟩)) := by
  have locations := congrArg (List.map Location.sectionIndex)
    (d.body_locations defaultBpm (.whole d.effectiveProgression))
  have cues : d.cues ⟨defaultBpm, none⟩ (.whole d.effectiveProgression) =
      d.sections.flatMap fun unit => unit.entry.cues d (d.globalTempo ⟨defaultBpm, none⟩) := by
    rw [effective_unsaved unsaved]
    exact List.flatMap_map ..
  rw [cues, List.map_map, List.map_map, List.filterMap_flatMap, List.map_flatMap] at locations
  exact locations

/-- The timeline goes through a section if that is the first with its id and has anything to go through. -/
theorem reached_unsaved (unsaved : d.progression = []) (defaultBpm : Float) (i : Nat) :
    (∃ m ∈ (d.play d.effectiveProgression ⟨defaultBpm, none⟩).moments.dropLast, m.location.sectionIndex = i) ↔
      ∃ unit, d.section? unit.id = some (i, unit) ∧ unit.HasUnit := by
  rw [← List.mem_map, places_unsaved unsaved, List.mem_flatMap]
  constructor
  · rintro ⟨unit, inSections, inPlaces⟩
    obtain ⟨s, first, found⟩ := section?_own inSections
    obtain ⟨rfl, hasUnit⟩ := (mem_entryPlaces found).mp inPlaces
    have carries : first.id = unit.id := (section?_eq_some_iff.mp found).2.1
    rw [← carries] at found
    exact ⟨first, found, hasUnit⟩
  · rintro ⟨unit, found, hasUnit⟩
    exact ⟨unit, List.mem_of_getElem? (section?_mem found), (mem_entryPlaces found).mpr ⟨rfl, hasUnit⟩⟩

/-- Where no two sections share an id, the timeline goes through them in their order. -/
theorem ordered_unsaved (unsaved : d.progression = []) (distinct : (d.sections.map Section.id).Nodup)
    (defaultBpm : Float) : (d.play d.effectiveProgression ⟨defaultBpm, none⟩).moments.dropLast.Pairwise
      fun m later => m.location.sectionIndex ≤ later.location.sectionIndex := by
  have own {i : Nat} (bound : i < d.sections.length) {place : Nat}
      (member : place ∈ d.entryPlaces (d.globalTempo ⟨defaultBpm, none⟩) d.sections[i]) : place = i :=
    ((mem_entryPlaces (section?_distinct distinct (List.getElem?_eq_getElem bound))).mp member).1
  -- Each section adds its own index only, and the sections are taken in their order.
  have ordered : (d.sections.flatMap (d.entryPlaces (d.globalTempo ⟨defaultBpm, none⟩))).Pairwise (· ≤ ·) := by
    refine List.pairwise_flatMap.mpr ⟨fun unit member => ?_, ?_⟩
    · obtain ⟨i, bound, rfl⟩ := List.mem_iff_getElem.mp member
      refine List.pairwise_iff_forall_sublist.mpr fun {place later} within => ?_
      have first : place = i := own bound (within.subset List.mem_cons_self)
      have second : later = i := own bound (within.subset (List.mem_cons_of_mem _ List.mem_cons_self))
      omega
    · refine List.pairwise_iff_getElem.mpr fun i j inI inJ before place inPlaces later inLater => ?_
      have first : place = i := own inI inPlaces
      have second : later = j := own inJ inLater
      omega
  rw [← places_unsaved unsaved, List.pairwise_map] at ordered
  exact ordered

theorem sections_unsaved (unsaved : d.progression = []) (defaultBpm : Float) :
    (d.play d.effectiveProgression ⟨defaultBpm, none⟩).sections.length = d.sections.length ∧
    ∀ (i : Nat) (unit : Section), d.sections[i]? = some unit → ∀ s first, d.section? unit.id = some (s, first) →
      (d.play d.effectiveProgression ⟨defaultBpm, none⟩).sections[i]? = some ⟨first.id, first.title,
        (first.body none (d.globalTempo ⟨defaultBpm, none⟩) s
          (d.clockAfter ⟨defaultBpm, none⟩ (d.effectiveProgression.take i))).units⟩ := by
  have single : ∀ part ∈ d.effectiveProgression.map fun entry => entry.part d ⟨defaultBpm, none⟩,
      ∀ clock, (part clock).cut = false ∧ (part clock).units.length = 1 := by
    intro part member clock
    rw [effective_unsaved unsaved, List.map_map] at member
    obtain ⟨unit, inSections, rfl⟩ := List.mem_map.mp member
    obtain ⟨s, first, found⟩ := section?_own inSections
    obtain ⟨whole, units⟩ := first.pass_uncapped (d.globalTempo ⟨defaultBpm, none⟩) s clock
    have plays : unit.entry.part d ⟨defaultBpm, none⟩ = first.pass none (d.globalTempo ⟨defaultBpm, none⟩) s :=
      entry_once found rfl _
    rw [Function.comp_apply, plays, units]
    exact ⟨whole, rfl⟩
  obtain ⟨length, made⟩ := Part.inOrder_single Clock.start single
  refine ⟨?_, fun i unit here s first found => ?_⟩
  · rw [List.length_map, effective_unsaved unsaved, List.length_map] at length
    rw [← length, effective_unsaved unsaved]
    rfl
  · have plays : unit.entry.part d ⟨defaultBpm, none⟩ = first.pass none (d.globalTempo ⟨defaultBpm, none⟩) s :=
      entry_once found rfl _
    have atPart : (d.effectiveProgression.map fun entry => entry.part d ⟨defaultBpm, none⟩)[i]? =
        some (unit.entry.part d ⟨defaultBpm, none⟩) := by
      rw [effective_unsaved unsaved, List.map_map, List.getElem?_map, here]
      rfl
    have atI := made i _ atPart
    rw [plays, ← List.map_take, (first.pass_uncapped _ s _).2] at atI
    exact atI

/-- Without a stored progression there is a pass for each section, which plays the first section that has the id
of that one: every section plays once and in order only where no two of them share an id. -/
theorem unsaved_plays (d : Document) (unsaved : d.progression = []) (defaultBpm : Float) :
    (d.play d.effectiveProgression ⟨defaultBpm, none⟩).sections.length = d.sections.length ∧
    (∀ (i : Nat) (unit : Section), d.sections[i]? = some unit → ∃ s first, d.section? unit.id = some (s, first) ∧
      (d.play d.effectiveProgression ⟨defaultBpm, none⟩).sections[i]? = some ⟨first.id, first.title,
        (first.body none (d.globalTempo ⟨defaultBpm, none⟩) s
          (d.clockAfter ⟨defaultBpm, none⟩ (d.effectiveProgression.take i))).units⟩) ∧
    (∀ i, (∃ m ∈ (d.play d.effectiveProgression ⟨defaultBpm, none⟩).moments.dropLast, m.location.sectionIndex = i) ↔
      ∃ unit, d.section? unit.id = some (i, unit) ∧ unit.HasUnit) ∧
    ((d.sections.map Section.id).Nodup →
      (∀ (i : Nat) (unit : Section), d.sections[i]? = some unit →
        (d.play d.effectiveProgression ⟨defaultBpm, none⟩).sections[i]? = some ⟨unit.id, unit.title,
          (unit.body none (d.globalTempo ⟨defaultBpm, none⟩) i
            (d.clockAfter ⟨defaultBpm, none⟩ (d.effectiveProgression.take i))).units⟩ ∧
        (unit.HasUnit → ∃ m ∈ (d.play d.effectiveProgression ⟨defaultBpm, none⟩).moments.dropLast,
          m.location.sectionIndex = i)) ∧
      (d.play d.effectiveProgression ⟨defaultBpm, none⟩).moments.dropLast.Pairwise fun m later =>
        m.location.sectionIndex ≤ later.location.sectionIndex) := by
  obtain ⟨length, made⟩ := d.sections_unsaved unsaved defaultBpm
  have reached := reached_unsaved unsaved defaultBpm
  refine ⟨length, fun i unit here => ?_, reached, fun distinct =>
    ⟨fun i unit here => ?_, ordered_unsaved unsaved distinct defaultBpm⟩⟩
  · obtain ⟨s, first, found⟩ := section?_own (List.mem_of_getElem? here)
    exact ⟨s, first, found, made i unit here s first found⟩
  · have found := section?_distinct distinct here
    exact ⟨made i unit here i unit found, fun hasUnit => (reached i).mpr ⟨unit, found, hasUnit⟩⟩

/-- A section of one column. -/
def oneColumn (id title : String) : Section :=
  { id, title, subsections := [{ content := .tab [.playable "c" "quarter"] }] }

def namesakes : Document :=
  { sections := [oneColumn "verse" "First", oneColumn "verse" "Second"] }

def verseAndChorus : Document :=
  { sections := [oneColumn "verse" "First", oneColumn "chorus" "Second"] }

theorem namesakes_play :
    namesakes.progression = [] ∧
    (∃ passes, (namesakes.play namesakes.effectiveProgression ⟨120.0, none⟩).sections[1]? =
      some ⟨"verse", "First", passes⟩) ∧
    (¬∃ m ∈ (namesakes.play namesakes.effectiveProgression ⟨120.0, none⟩).moments.dropLast,
      m.location.sectionIndex = 1) ∧
    verseAndChorus.progression = [] ∧ (verseAndChorus.sections.map Section.id).Nodup ∧
    (∃ passes, (verseAndChorus.play verseAndChorus.effectiveProgression ⟨120.0, none⟩).sections[1]? =
      some ⟨"chorus", "Second", passes⟩) ∧
    ∃ m ∈ (verseAndChorus.play verseAndChorus.effectiveProgression ⟨120.0, none⟩).moments.dropLast,
      m.location.sectionIndex = 1 := by
  obtain ⟨_, shadowed, places, _⟩ := unsaved_plays namesakes rfl 120.0
  obtain ⟨_, _, _, inTurn⟩ := unsaved_plays verseAndChorus rfl 120.0
  have distinct : (verseAndChorus.sections.map Section.id).Nodup := by decide
  obtain ⟨second, _⟩ := inTurn distinct
  obtain ⟨kept, reached⟩ := second 1 (oneColumn "chorus" "Second") rfl
  have hasUnit : (oneColumn "chorus" "Second").HasUnit := ⟨_, List.mem_singleton.mpr rfl, List.cons_ne_nil _ _⟩
  refine ⟨rfl, ?_, fun reaches => ?_, rfl, distinct, ⟨_, kept⟩, reached hasUnit⟩
  · obtain ⟨s, first, found, pass⟩ := shadowed 1 (oneColumn "verse" "Second") rfl
    have isFirst : namesakes.section? "verse" = some (0, oneColumn "verse" "First") := rfl
    cases found.symm.trans isFirst
    exact ⟨_, pass⟩
  · obtain ⟨unit, found, _⟩ := (places 1).mp reaches
    obtain ⟨here, _, before⟩ := section?_eq_some_iff.mp found
    cases here
    exact before 0 Nat.one_pos (oneColumn "verse" "First") rfl rfl

end Document

end Tablature
