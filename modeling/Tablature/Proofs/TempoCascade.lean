import Tablature.Proofs.Origin
import Tablature.Proofs.Turns

namespace Tablature

/-- The first of these tempos that can be played, and 120 if there is none. -/
def firstUsable (tempos : List (Option Float)) : Float :=
  ((tempos.filterMap id).find? isUsableTempo).getD 120.0

theorem firstUsable_cons (tempo : Option Float) (tempos : List (Option Float)) :
    firstUsable (tempo :: tempos) = resolveTempo tempo (firstUsable tempos) := by
  cases tempo with
  | none => rfl
  | some bpm =>
    have first : (some bpm :: tempos).filterMap id = bpm :: tempos.filterMap id := rfl
    by_cases usable : isUsableTempo bpm = true
    · simp only [firstUsable, resolveTempo, first, List.find?_cons_of_pos usable, if_pos usable, Option.getD_some]
    · simp only [firstUsable, resolveTempo, first, List.find?_cons_of_neg usable, if_neg usable]

theorem firstUsable_usable (tempos : List (Option Float)) : isUsableTempo (firstUsable tempos) = true := by
  unfold firstUsable
  cases found : (tempos.filterMap id).find? isUsableTempo with
  | none => decide
  | some bpm => exact List.find?_some found

theorem Document.globalTempo_eq (d : Document) (options : Options) :
    d.globalTempo options = firstUsable [d.bpm, some options.defaultBpm] := by
  rw [firstUsable_cons, firstUsable_cons]
  rfl

/-- The tempo that is set at a place of a subsection itself: by the last measure line up to a column, or by the
chord sequence of a strum. There is none, not even an absent one, where the subsection has no such place. -/
def Content.ownTempo? (content : Content) (sequence : Option Nat) (place : Nat) : Option (Option Float) :=
  match content, sequence with
  | .tab columns, none => (columns[place]?).map fun _ => (lastMeasureLine columns place).bind Column.measureTempo
  | .chords sequences, some i =>
    (sequences[i]?).bind fun q => (q.pattern.strums[place]?).map fun _ => q.bpm
  | _, _ => none

/-- The tempo at a place of the document, which depends on nothing but the scopes around it. -/
def Document.tempoAt? (d : Document) (options : Options) (l : Location) : Option Float := do
  let unit ← d.sections[l.sectionIndex]?
  let b ← unit.subsections[l.subsectionIndex]?
  let own ← b.content.ownTempo? l.sequenceIndex l.unit
  some (firstUsable [own, b.bpm, d.bpm, some options.defaultBpm])

/-- The place and the tempo of a cue, if it is not a mere report. -/
def Cue.place? : Cue → Option (Location × Float)
  | strike location bpm _ => some (location, bpm)
  | bar location bpm => some (location, bpm)
  | report _ => none

theorem Column.cues_place {location : Location} {bpm : Float} {c : Column} {cue : Cue}
    (member : cue ∈ c.cues location bpm) {place : Location × Float} (at' : cue.place? = some place) :
    place = (location, bpm) := by
  rcases mem_cues member with ⟨_, rfl⟩ | ⟨_, rfl⟩ | ⟨p, _, rfl⟩
  · cases at'
    rfl
  · cases at'
    rfl
  · cases at'

theorem ChordSequence.cues_place {enclosing : Float} {s t i : Nat} {q : ChordSequence} {cue : Cue}
    (member : cue ∈ q.cues enclosing s t i) {place : Location × Float} (at' : cue.place? = some place) :
    ∃ k, k < q.pattern.strums.length ∧ place = (.strum s t i k, resolveTempo q.bpm enclosing) := by
  rcases mem_cues member with ⟨p, _, rfl⟩ | ⟨k, bound, rfl⟩
  · cases at'
  · cases at'
    exact ⟨k, bound, rfl⟩

theorem Cue.Origin.tempo {d : Document} {options : Options} {cue : Cue}
    (origin : cue.Origin d (d.globalTempo options)) {place : Location × Float} (at' : cue.place? = some place) :
    d.tempoAt? options place.1 = some place.2 := by
  cases origin with
  | missing id => cases at'
  | column atUnit atB content atC member =>
    rw [Column.cues_place member at']
    simp only [Document.tempoAt?, Location.column, atUnit, atB, content, Content.ownTempo?, atC,
      Option.bind_eq_bind, Option.bind_some, Option.map_some]
    rw [firstUsable_cons, firstUsable_cons, ← Document.globalTempo_eq]
    rfl
  | sequence atUnit atB content atQ member =>
    obtain ⟨k, bound, rfl⟩ := ChordSequence.cues_place member at'
    simp only [Document.tempoAt?, Location.strum, atUnit, atB, content, Content.ownTempo?, atQ,
      List.getElem?_eq_getElem bound, Option.bind_eq_bind, Option.bind_some, Option.map_some]
    rw [firstUsable_cons, firstUsable_cons, ← Document.globalTempo_eq]

/-- Each moment of an answer has the tempo of its place. -/
theorem Document.body_tempo {d : Document} {options : Options} {r : Request} {m : Moment}
    (member : m ∈ (d.answer options r).body r) : d.tempoAt? options m.location = some m.bpm := by
  rcases body_cue member with struck | ⟨barred, _⟩
  · exact (cues_origin struck).tempo rfl
  · exact (cues_origin barred).tempo rfl

/-- The tempo of a pass of a chord sequence is the cascade from the sequence on. -/
def SequencePass.InTempo (sequences : List ChordSequence) (scopes : List (Option Float)) (i : Nat)
    (pass : SequencePass) : Prop :=
  ∃ q, sequences[i]? = some q ∧ pass.bpm = firstUsable (q.bpm :: scopes)

/-- The tempo of a pass of a subsection is the cascade from the subsection on, and so for the passes in it. -/
def SubsectionPass.InTempo (unit : Section) (scopes : List (Option Float)) (turn : SubsectionTurn)
    (pass : SubsectionPass) : Prop :=
  ∃ b, unit.subsections[turn.t]? = some b ∧ pass.bpm = firstUsable (b.bpm :: scopes) ∧
    ∀ passes, pass.content = .chords passes → ∃ sequences, b.content = .chords sequences ∧
      Aligned (SequencePass.InTempo sequences (b.bpm :: scopes)) turn.sequences passes

def SectionPass.InTempo (d : Document) (scopes : List (Option Float)) (turn : SectionTurn) (pass : SectionPass) :
    Prop :=
  ∃ unit, d.sections[turn.s]? = some unit ∧
    Aligned (SubsectionPass.InTempo unit scopes) turn.subsections pass.subsections

theorem Document.sections_inTempo (d : Document) (options : Options) (r : Request) :
    Aligned (SectionPass.InTempo d [d.bpm, some options.defaultBpm]) (d.turns r)
      (d.answer options r).sections := by
  refine (d.answer_woven options r).aligned fun _ _ played => ?_
  obtain ⟨placed, woven⟩ := played
  refine ⟨_, placed, woven.aligned fun _ _ played => ?_⟩
  cases played with
  | @tab t b columns start cut marks placed content played =>
    refine ⟨b, placed, ?_, nofun⟩
    rw [firstUsable_cons, ← globalTempo_eq]
  | @chords t b sequences turns cut marks passes placed content woven =>
    refine ⟨b, placed, ?_, fun _ same => ?_⟩
    · rw [firstUsable_cons, ← globalTempo_eq]
    · cases same
      refine ⟨sequences, content, woven.aligned fun _ _ played => ?_⟩
      obtain ⟨placed, _⟩ := played
      refine ⟨_, placed, ?_⟩
      rw [firstUsable_cons, firstUsable_cons, ← globalTempo_eq]

theorem Document.tempoAt?_usable {d : Document} {options : Options} {l : Location} {bpm : Float}
    (at' : d.tempoAt? options l = some bpm) : isUsableTempo bpm = true := by
  obtain ⟨unit, _, inUnit⟩ := Option.bind_eq_some_iff.mp at'
  obtain ⟨b, _, inB⟩ := Option.bind_eq_some_iff.mp inUnit
  obtain ⟨own, _, same⟩ := Option.bind_eq_some_iff.mp inB
  cases same
  exact firstUsable_usable _

/-- The tempos written on a pass of a subsection and on the passes in it. -/
def SubsectionPass.tempos (pass : SubsectionPass) : List Float :=
  pass.bpm :: match pass.content with
    | .tab _ _ => []
    | .chords passes => passes.map SequencePass.bpm

/-- Every tempo that a playback records, on its timeline and in its tree. -/
def Playback.tempos (p : Playback) : List Float :=
  p.moments.map Moment.bpm ++ p.sections.flatMap fun pass => pass.subsections.flatMap SubsectionPass.tempos

theorem SubsectionPass.InTempo.usable {unit : Section} {scopes : List (Option Float)} {turn : SubsectionTurn}
    {pass : SubsectionPass} (inTempo : pass.InTempo unit scopes turn) {bpm : Float} (member : bpm ∈ pass.tempos) :
    isUsableTempo bpm = true := by
  obtain ⟨b, _, own, inner⟩ := inTempo
  unfold SubsectionPass.tempos at member
  rcases List.mem_cons.mp member with rfl | member
  · rw [own]
    exact firstUsable_usable _
  · cases content : pass.content with
    | tab columns indices =>
      rw [content] at member
      cases member
    | chords passes =>
      rw [content] at member
      obtain ⟨sequences, _, aligned⟩ := inner passes content
      obtain ⟨sequencePass, inPasses, rfl⟩ := List.mem_map.mp member
      obtain ⟨n, at'⟩ := List.mem_iff_getElem?.mp inPasses
      obtain ⟨i, _, q, _, same⟩ := aligned n sequencePass at'
      rw [same]
      exact firstUsable_usable _

theorem Document.tempos_usable {d : Document} {options : Options} {r : Request} {bpm : Float}
    (member : bpm ∈ (d.answer options r).tempos) : isUsableTempo bpm = true := by
  rcases List.mem_append.mp member with onTimeline | inTree
  · obtain ⟨m, inMoments, rfl⟩ := List.mem_map.mp onTimeline
    rcases moments_origin inMoments with inBody | ⟨last, inBody, rfl⟩
    · exact tempoAt?_usable (body_tempo inBody)
    · have usable : isUsableTempo last.bpm = true := tempoAt?_usable (body_tempo inBody)
      exact usable
  · obtain ⟨pass, inSections, inPass⟩ := List.mem_flatMap.mp inTree
    obtain ⟨sub, inSubsections, inSub⟩ := List.mem_flatMap.mp inPass
    obtain ⟨k, atPass⟩ := List.mem_iff_getElem?.mp inSections
    obtain ⟨turn, _, unit, _, aligned⟩ := d.sections_inTempo options r k pass atPass
    obtain ⟨l, atSub⟩ := List.mem_iff_getElem?.mp inSubsections
    obtain ⟨subTurn, _, inTempo⟩ := aligned l sub atSub
    exact inTempo.usable inSub

/-- The tempo of every moment is the first usable one among the last measure line before it or its chord
sequence, its subsection, the document, the options and 120; the passes of the tree have theirs from their own
scope on. So every tempo that is recorded can be played. -/
theorem Document.tempo_cascades (d : Document) (options : Options) (r : Request) :
    (∀ m ∈ (d.answer options r).body r, d.tempoAt? options m.location = some m.bpm) ∧
    Aligned (SectionPass.InTempo d [d.bpm, some options.defaultBpm]) (d.turns r) (d.answer options r).sections ∧
    ∀ bpm ∈ (d.answer options r).tempos, isUsableTempo bpm = true :=
  ⟨fun _ member => body_tempo member, d.sections_inTempo options r, fun _ member => tempos_usable member⟩

end Tablature
