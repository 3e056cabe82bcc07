import Tablature.Proofs.DefaultProgression
import Tablature.Proofs.Shifting
import Tablature.Proofs.TempoCascade

namespace Tablature

namespace Playback

/-- The timeline of a playback apart from when it comes. -/
def marks (p : Playback) : List Mark :=
  p.moments.map Moment.mark

/-- The passes of subsections that a playback holds. -/
def subsectionPasses (p : Playback) : List SubsectionPass :=
  p.sections.flatMap SectionPass.subsections

/-- The passes of chord sequences that a playback holds. -/
def sequencePasses (p : Playback) : List SequencePass :=
  p.subsectionPasses.flatMap fun pass =>
    match pass.content with
    | .tab _ _ => []
    | .chords passes => passes

end Playback

/-- What playbacks hold one after the other, each behind the playable units of those before it and `n` more. -/
def inSuccession {β : Type} (shift : Nat → β → β) (content : Playback → List β) : Nat → List Playback → List β
  | _, [] => []
  | n, p :: ps => (content p).map (shift n) ++ inSuccession shift content (n + p.playableCount) ps

/-- How many units playbacks play together. -/
def playableTotal : List Playback → Nat
  | [] => 0
  | p :: ps => p.playableCount + playableTotal ps

/-- The part is never cut short. What it gives depends on the index at which the clock stands, but it always plays
`count` units. -/
structure Part.Gives {α : Type} (units : Nat → List α) (marks : Nat → List Mark) (count : Nat) (part : Part α) :
    Prop where
  whole : ∀ clock, (part clock).cut = false
  units : ∀ clock, (part clock).units = units clock.index
  marks : ∀ clock, (part clock).moments.map Moment.mark = marks clock.index
  index : ∀ clock, (part clock).clock.index = clock.index + count

/-- The playback holds what the part gives when it is played from the start. -/
structure Playback.Holds {α : Type} (content : Playback → List α) (p : Playback) (part : Part α) : Prop where
  units : content p = (part Clock.start).units
  marks : p.marks = (part Clock.start).moments.map Moment.mark
  count : p.playableCount = (part Clock.start).clock.index

namespace Part.Gives

variable {α β : Type} {units : Nat → List α} {marks : Nat → List Mark} {count : Nat} {part : Part α}

theorem gather (inner : part.Gives units marks count) (unit : List α → β) :
    (part.gather unit).Gives (fun n => [unit (units n)]) marks count where
  whole := inner.whole
  units := by
    intro clock
    rw [← inner.units]
    refine (gather_units unit part clock).2 fun stopped => ?_
    rw [inner.whole clock] at stopped
    cases stopped.1
  marks := inner.marks
  index := inner.index

/-- Each pass gives what the first one does, behind the units of those before it. -/
theorem times (once : part.Gives units marks count) (n : Nat) :
    (part.times n).Gives (fun start => (List.range n).flatMap fun k => units (start + k * count))
      (fun start => (List.range n).flatMap fun k => marks (start + k * count)) (n * count) := by
  induction n with
  | zero => exact ⟨fun _ => rfl, fun _ => rfl, fun _ => rfl, fun clock => by rw [Nat.zero_mul]; rfl⟩
  | succ n ih =>
    have next (start k : Nat) : start + count + k * count = start + (k + 1) * count := by
      rw [Nat.succ_mul]
      omega
    have played (clock : Clock) : part.times (n + 1) clock = (part clock).append (part.times n (part clock).clock) :=
      andThen_of_whole _ (once.whole clock)
    refine ⟨fun clock => ?_, fun clock => ?_, fun clock => ?_, fun clock => ?_⟩
    · rw [played]
      exact ih.whole _
    · rw [played, Run.append, once.units, ih.units, once.index, List.range_succ_eq_map, List.flatMap_cons,
        List.flatMap_map, Nat.zero_mul]
      simp only [next, Nat.succ_eq_add_one, Nat.add_zero]
    · rw [played, Run.append, List.map_append, once.marks, ih.marks, once.index, List.range_succ_eq_map,
        List.flatMap_cons, List.flatMap_map, Nat.zero_mul]
      simp only [next, Nat.succ_eq_add_one, Nat.add_zero]
    · rw [played, Run.append, ih.index, once.index, Nat.succ_mul]
      omega

/-- Parts in order give what their playbacks hold in succession. -/
theorem inOrder {shift : Nat → α → α} {content : Playback → List α} {playbacks : List Playback}
    {parts : List (Part α)} (each : List.Forall₂ (Playback.Holds content) playbacks parts)
    (shifts : ∀ part ∈ parts, part.Shifts shift) :
    (Part.inOrder parts).Gives (fun n => inSuccession shift content n playbacks)
      (fun n => inSuccession Mark.shift Playback.marks n playbacks) (playableTotal playbacks) := by
  induction each with
  | nil => exact ⟨fun _ => rfl, fun _ => rfl, fun _ => rfl, fun _ => rfl⟩
  | @cons p part playbacks parts holds _ ih =>
    obtain ⟨first, others⟩ := List.forall_mem_cons.mp shifts
    have later := ih others
    -- Played from any clock, the first part is behind as many units as that clock has counted.
    have moved (clock : Clock) : (part clock).Shifted shift clock.index (part Clock.start) := first.shifted rfl
    have index (clock : Clock) : (part clock).clock.index = clock.index + p.playableCount := by
      rw [(moved clock).index, holds.count]
    have played (clock : Clock) : Part.inOrder (part :: parts) clock =
        (part clock).append (Part.inOrder parts (part clock).clock) := andThen_of_whole _ (first.whole clock)
    refine ⟨fun clock => ?_, fun clock => ?_, fun clock => ?_, fun clock => ?_⟩
    · rw [played]
      exact later.whole _
    · rw [played, Run.append, later.units, index, (moved clock).units, inSuccession, holds.units]
    · rw [played, Run.append, List.map_append, later.marks, index, (moved clock).marks, inSuccession, holds.marks]
    · rw [played, Run.append, later.index, index, playableTotal]
      omega

end Part.Gives

namespace Document

variable {d : Document} {s t i : Nat} {unit : Section} {b : Subsection} {sequences : List ChordSequence}
  {q : ChordSequence} {options : Options}

/-- The previews of the subsections of a section, in order. -/
def subsectionPreviews (d : Document) (options : Options) (s : Nat) (unit : Section) : List Playback :=
  unit.subsections.mapIdx fun t _ => d.preview ⟨s, some t, none⟩ options

/-- The previews of the chord sequences of a subsection, in order. -/
def sequencePreviews (d : Document) (options : Options) (s t : Nat) (sequences : List ChordSequence) :
    List Playback :=
  sequences.mapIdx fun i _ => d.preview ⟨s, some t, some i⟩ options

theorem program?_section (atUnit : d.sections[s]? = some unit) :
    d.program? (.part ⟨s, none, none⟩) = some (.oneSection s unit) := by
  simp only [program?, atUnit, Option.bind_eq_bind, Option.bind_some]

theorem program?_subsection (atUnit : d.sections[s]? = some unit) (atB : unit.subsections[t]? = some b) :
    d.program? (.part ⟨s, some t, none⟩) = some (.oneSubsection s unit t b) := by
  simp only [program?, atUnit, atB, Option.bind_eq_bind, Option.bind_some, Option.map_some]

theorem program?_sequence (atUnit : d.sections[s]? = some unit) (atB : unit.subsections[t]? = some b)
    (content : b.content = .chords sequences) (atQ : sequences[i]? = some q) :
    d.program? (.part ⟨s, some t, some i⟩) = some (.oneSequence s unit t b i q) := by
  simp only [program?, atUnit, atB, content, atQ, Option.bind_eq_bind, Option.bind_some, Option.map_some]

theorem preview_subsection (atUnit : d.sections[s]? = some unit) (atB : unit.subsections[t]? = some b)
    (options : Options) :
    (d.preview ⟨s, some t, none⟩ options).sections =
        [⟨unit.id, unit.title, (b.part options.cap (d.globalTempo options) s t Clock.start).units⟩] ∧
      (d.preview ⟨s, some t, none⟩ options).Holds Playback.subsectionPasses
        (b.part options.cap (d.globalTempo options) s t) := by
  have found := program?_subsection atUnit atB
  have played : d.preview ⟨s, some t, none⟩ options = _ := answer_found found options
  have count := playableCount_found found options
  have sections := congrArg Playback.sections played
  refine ⟨sections, ?_, congrArg Playback.marks played, count⟩
  rw [Playback.subsectionPasses, sections]
  exact List.append_nil _

theorem preview_sequence (atUnit : d.sections[s]? = some unit) (atB : unit.subsections[t]? = some b)
    (content : b.content = .chords sequences) (atQ : sequences[i]? = some q) (options : Options) :
    (d.preview ⟨s, some t, some i⟩ options).sections =
        [⟨unit.id, unit.title, [⟨b.id, resolveTempo b.bpm (d.globalTempo options), .chords
          (q.part options.cap (resolveTempo b.bpm (d.globalTempo options)) s t i Clock.start).units⟩]⟩] ∧
      (d.preview ⟨s, some t, some i⟩ options).Holds Playback.sequencePasses
        (q.part options.cap (resolveTempo b.bpm (d.globalTempo options)) s t i) := by
  have found := program?_sequence atUnit atB content atQ
  have played : d.preview ⟨s, some t, some i⟩ options = _ := answer_found found options
  have count := playableCount_found found options
  have sections := congrArg Playback.sections played
  refine ⟨sections, ?_, congrArg Playback.marks played, count⟩
  rw [Playback.sequencePasses, Playback.subsectionPasses, sections]
  exact List.append_nil _

section Uncapped

variable (defaultBpm : Float)

theorem body_gives (atUnit : d.sections[s]? = some unit) :
    (unit.body none (d.globalTempo ⟨defaultBpm, none⟩) s).Gives
      (fun n => inSuccession SubsectionPass.shift Playback.subsectionPasses n
        (d.subsectionPreviews ⟨defaultBpm, none⟩ s unit))
      (fun n => inSuccession Mark.shift Playback.marks n (d.subsectionPreviews ⟨defaultBpm, none⟩ s unit))
      (playableTotal (d.subsectionPreviews ⟨defaultBpm, none⟩ s unit)) := by
  refine .inOrder (forall₂_mapIdx_self fun t b atB => (preview_subsection atUnit atB ⟨defaultBpm, none⟩).2) ?_
  intro part member
  obtain ⟨t, bound, rfl⟩ := List.mem_mapIdx.mp member
  exact Subsection.part_shifts ..

theorem pass_gives (atUnit : d.sections[s]? = some unit) (atB : unit.subsections[t]? = some b)
    (content : b.content = .chords sequences) :
    (b.pass none (d.globalTempo ⟨defaultBpm, none⟩) s t).Gives
      (fun n => [⟨b.id, resolveTempo b.bpm (d.globalTempo ⟨defaultBpm, none⟩), .chords
        (inSuccession SequencePass.shift Playback.sequencePasses n
          (d.sequencePreviews ⟨defaultBpm, none⟩ s t sequences))⟩])
      (fun n => inSuccession Mark.shift Playback.marks n (d.sequencePreviews ⟨defaultBpm, none⟩ s t sequences))
      (playableTotal (d.sequencePreviews ⟨defaultBpm, none⟩ s t sequences)) := by
  have shifts : ∀ part ∈ sequences.mapIdx fun i q =>
      q.part none (resolveTempo b.bpm (d.globalTempo ⟨defaultBpm, none⟩)) s t i, part.Shifts SequencePass.shift := by
    intro part member
    obtain ⟨i, bound, rfl⟩ := List.mem_mapIdx.mp member
    exact ChordSequence.part_shifts ..
  have inner := Part.Gives.inOrder (forall₂_mapIdx_self fun i q atQ =>
    (preview_sequence atUnit atB content atQ ⟨defaultBpm, none⟩).2) shifts
  have gathered := inner.gather fun passes =>
    SubsectionPass.mk b.id (resolveTempo b.bpm (d.globalTempo ⟨defaultBpm, none⟩)) (.chords passes)
  unfold Subsection.pass
  rw [content]
  exact gathered

/-- Without a cap, a sequence played alone goes through every strum that a cue of the sequence plays. -/
theorem preview_sequence_goes (atUnit : d.sections[s]? = some unit) (atB : unit.subsections[t]? = some b)
    (content : b.content = .chords sequences) (atQ : sequences[i]? = some q) {cue : Cue}
    (member : cue ∈ q.cues (resolveTempo b.bpm (d.globalTempo ⟨defaultBpm, none⟩)) s t i) {beat : Beat}
    (gives : cue.beat? = some beat) :
    ∃ m ∈ (d.preview ⟨s, some t, some i⟩ ⟨defaultBpm, none⟩).moments, m.location = beat.location := by
  have cued : cue ∈ d.cues ⟨defaultBpm, none⟩ (.part ⟨s, some t, some i⟩) := by
    rw [cues, program?_sequence atUnit atB content atQ]
    exact member
  have reached : beat.location ∈
      ((d.cues ⟨defaultBpm, none⟩ (.part ⟨s, some t, some i⟩)).filterMap Cue.beat?).map Beat.location :=
    List.mem_map_of_mem (List.mem_filterMap.mpr ⟨cue, cued, gives⟩)
  rw [← body_locations] at reached
  exact List.mem_map.mp reached

/-- Wherever a strum is played, its sequence played alone reaches it too, and at the same tempo. -/
theorem strum_tempo {defaultBpm : Float} {r : Request} {m : Moment}
    (member : m ∈ (d.answer ⟨defaultBpm, none⟩ r).body r) (isStrum : m.location.sequenceIndex = some i) :
    (∃ alone ∈ (d.preview ⟨m.location.sectionIndex, some m.location.subsectionIndex, some i⟩
        ⟨defaultBpm, none⟩).moments, alone.location = m.location) ∧
    ∀ alone ∈ (d.preview ⟨m.location.sectionIndex, some m.location.subsectionIndex, some i⟩
      ⟨defaultBpm, none⟩).moments, alone.location = m.location → alone.bpm = m.bpm := by
  constructor
  · have cued : ∃ cue ∈ d.cues ⟨defaultBpm, none⟩ r, ∃ beat, cue.beat? = some beat ∧
        beat.location = m.location := by
      rcases body_cue member with struck | ⟨barred, _⟩
      · exact ⟨_, struck, _, rfl, rfl⟩
      · exact ⟨_, barred, _, rfl, rfl⟩
    obtain ⟨cue, inCues, beat, gives, here⟩ := cued
    rw [← here] at isStrum ⊢
    cases cues_origin inCues with
    | missing id => cases gives
    | column atUnit atB content atC inColumn =>
      rcases Column.mem_cues inColumn with ⟨_, rfl⟩ | ⟨_, rfl⟩ | ⟨p, _, rfl⟩ <;> cases gives <;> cases isStrum
    | sequence atUnit atB content atQ inSequence =>
      have goes := preview_sequence_goes defaultBpm atUnit atB content atQ inSequence gives
      rcases ChordSequence.mem_cues inSequence with ⟨p, _, rfl⟩ | ⟨k, _, rfl⟩ <;> cases gives
      cases isStrum
      exact goes
  · intro alone inAlone same
    have tempo : d.tempoAt? ⟨defaultBpm, none⟩ alone.location = some alone.bpm := body_tempo (r := .part _) inAlone
    rw [same, body_tempo member] at tempo
    exact (Option.some.inj tempo).symm

theorem preview_section_composes (atUnit : d.sections[s]? = some unit) :
    (d.preview ⟨s, none, none⟩ ⟨defaultBpm, none⟩).sections = [⟨unit.id, unit.title,
      inSuccession SubsectionPass.shift Playback.subsectionPasses 0
        (d.subsectionPreviews ⟨defaultBpm, none⟩ s unit)⟩] ∧
    (d.preview ⟨s, none, none⟩ ⟨defaultBpm, none⟩).marks =
      inSuccession Mark.shift Playback.marks 0 (d.subsectionPreviews ⟨defaultBpm, none⟩ s unit) := by
  have played : d.preview ⟨s, none, none⟩ ⟨defaultBpm, none⟩ = _ := answer_found (program?_section atUnit) _
  have given := body_gives defaultBpm atUnit
  refine ⟨(congrArg Playback.sections played).trans ?_, (congrArg Playback.marks played).trans ?_⟩
  · exact congrArg (fun passes => [SectionPass.mk unit.id unit.title passes]) (given.units Clock.start)
  · exact given.marks Clock.start

theorem preview_chords_composes (atUnit : d.sections[s]? = some unit) (atB : unit.subsections[t]? = some b)
    (content : b.content = .chords sequences) :
    (d.preview ⟨s, some t, none⟩ ⟨defaultBpm, none⟩).sections = [⟨unit.id, unit.title,
      (List.range (passes b.repetitions)).map fun k =>
        ⟨b.id, resolveTempo b.bpm (d.globalTempo ⟨defaultBpm, none⟩), .chords
          (inSuccession SequencePass.shift Playback.sequencePasses
            (k * playableTotal (d.sequencePreviews ⟨defaultBpm, none⟩ s t sequences))
            (d.sequencePreviews ⟨defaultBpm, none⟩ s t sequences))⟩⟩] ∧
    (d.preview ⟨s, some t, none⟩ ⟨defaultBpm, none⟩).marks =
      (List.range (passes b.repetitions)).flatMap fun k =>
        inSuccession Mark.shift Playback.marks
          (k * playableTotal (d.sequencePreviews ⟨defaultBpm, none⟩ s t sequences))
          (d.sequencePreviews ⟨defaultBpm, none⟩ s t sequences) := by
  have played : d.preview ⟨s, some t, none⟩ ⟨defaultBpm, none⟩ = _ :=
    answer_found (program?_subsection atUnit atB) _
  have given := (pass_gives defaultBpm atUnit atB content).times (passes b.repetitions)
  have units := given.units Clock.start
  have marks := given.marks Clock.start
  simp only [Clock.start, Nat.zero_add] at units marks
  rw [← List.map_eq_flatMap] at units
  refine ⟨(congrArg Playback.sections played).trans ?_, (congrArg Playback.marks played).trans marks⟩
  exact congrArg (fun passes => [SectionPass.mk unit.id unit.title passes]) units

end Uncapped

/-- Without a cap, a section played alone is its subsections played alone, one after the other, and a pass of chords
is its sequences played alone. What follows stands behind the playable units of what went before, and is otherwise
the same, apart from when it comes. -/
theorem previews_compose (d : Document) (defaultBpm : Float) :
    (∀ s unit, d.sections[s]? = some unit →
      (∀ p ∈ d.subsectionPreviews ⟨defaultBpm, none⟩ s unit, ∃ passes,
        p.sections = [⟨unit.id, unit.title, passes⟩]) ∧
      (d.preview ⟨s, none, none⟩ ⟨defaultBpm, none⟩).sections = [⟨unit.id, unit.title,
        inSuccession SubsectionPass.shift Playback.subsectionPasses 0
          (d.subsectionPreviews ⟨defaultBpm, none⟩ s unit)⟩] ∧
      (d.preview ⟨s, none, none⟩ ⟨defaultBpm, none⟩).marks =
        inSuccession Mark.shift Playback.marks 0 (d.subsectionPreviews ⟨defaultBpm, none⟩ s unit)) ∧
    (∀ s unit t b sequences, d.sections[s]? = some unit → unit.subsections[t]? = some b →
      b.content = .chords sequences → ∃ bpm,
        (∀ p ∈ d.sequencePreviews ⟨defaultBpm, none⟩ s t sequences, ∃ passes,
          p.sections = [⟨unit.id, unit.title, [⟨b.id, bpm, .chords passes⟩]⟩]) ∧
        (d.preview ⟨s, some t, none⟩ ⟨defaultBpm, none⟩).sections = [⟨unit.id, unit.title,
          (List.range (passes b.repetitions)).map fun k =>
            ⟨b.id, bpm, .chords (inSuccession SequencePass.shift Playback.sequencePasses
              (k * playableTotal (d.sequencePreviews ⟨defaultBpm, none⟩ s t sequences))
              (d.sequencePreviews ⟨defaultBpm, none⟩ s t sequences))⟩⟩] ∧
        (d.preview ⟨s, some t, none⟩ ⟨defaultBpm, none⟩).marks =
          (List.range (passes b.repetitions)).flatMap fun k =>
            inSuccession Mark.shift Playback.marks
              (k * playableTotal (d.sequencePreviews ⟨defaultBpm, none⟩ s t sequences))
              (d.sequencePreviews ⟨defaultBpm, none⟩ s t sequences)) ∧
    ∀ r, ∀ m ∈ (d.answer ⟨defaultBpm, none⟩ r).body r, ∀ i, m.location.sequenceIndex = some i →
      (∃ alone ∈ (d.preview ⟨m.location.sectionIndex, some m.location.subsectionIndex, some i⟩
        ⟨defaultBpm, none⟩).moments, alone.location = m.location) ∧
      ∀ alone ∈ (d.preview ⟨m.location.sectionIndex, some m.location.subsectionIndex, some i⟩
        ⟨defaultBpm, none⟩).moments, alone.location = m.location → alone.bpm = m.bpm := by
  refine ⟨fun s unit atUnit => ⟨fun p member => ?_, preview_section_composes defaultBpm atUnit⟩,
    fun s unit t b sequences atUnit atB content =>
      ⟨_, fun p member => ?_, preview_chords_composes defaultBpm atUnit atB content⟩,
    fun r m member i isStrum => strum_tempo member isStrum⟩
  · obtain ⟨t, bound, rfl⟩ := List.mem_mapIdx.mp member
    exact ⟨_, (preview_subsection atUnit (List.getElem?_eq_getElem bound) _).1⟩
  · obtain ⟨i, bound, rfl⟩ := List.mem_mapIdx.mp member
    exact ⟨_, (preview_sequence atUnit atB content (List.getElem?_eq_getElem bound) _).1⟩

/-- Two strums on one chord, and one strum on the next. -/
def twoChords : List ChordSequence :=
  [{ id := "first", pattern := { noteLength := "quarter", strums := [{}, {}] }, chords := ["C", ""] },
    { id := "second", bpm := some 60.0, pattern := { noteLength := "half", strums := [{}] }, chords := ["G"] }]

/-- A section of one column and of chords that are played twice. -/
def refrain : Section :=
  { id := "refrain"
    subsections := [{ content := .tab [.playable "c" "quarter"] },
      { id := "chords", bpm := some 90.0, repetitions := 2, content := .chords twoChords }] }

def refrainAlone : Document :=
  { sections := [refrain] }

theorem refrain_composes :
    refrainAlone.sections[0]? = some refrain ∧
    (refrainAlone.preview ⟨0, none, none⟩ ⟨120.0, none⟩).marks =
      (refrainAlone.preview ⟨0, some 0, none⟩ ⟨120.0, none⟩).marks.map (Mark.shift 0) ++
        ((refrainAlone.preview ⟨0, some 1, none⟩ ⟨120.0, none⟩).marks.map (Mark.shift 1) ++ []) ∧
    (refrainAlone.preview ⟨0, some 1, none⟩ ⟨120.0, none⟩).marks.map Mark.index =
      [some 0, some 1, some 2, some 3, some 4, some 5] ∧
    ∀ m ∈ (refrainAlone.preview ⟨0, none, none⟩ ⟨120.0, none⟩).moments, m.location = .strum 0 1 1 0 →
      ∀ alone ∈ (refrainAlone.preview ⟨0, some 1, some 1⟩ ⟨120.0, none⟩).moments, alone.location = m.location →
        alone.bpm = m.bpm := by
  obtain ⟨sections, chords, strums⟩ := previews_compose refrainAlone 120.0
  obtain ⟨_, _, marks⟩ := sections 0 refrain rfl
  obtain ⟨bpm, _, _, passes⟩ := chords 0 refrain 1 _ twoChords rfl rfl rfl
  refine ⟨rfl, marks, ?_, fun m member here => ?_⟩
  · rw [passes]
    rfl
  · have isStrum : m.location.sequenceIndex = some 1 := by rw [here]; rfl
    have same := (strums (.part ⟨0, none, none⟩) m member 1 isStrum).2
    rw [here] at same ⊢
    exact same

end Document

end Tablature
