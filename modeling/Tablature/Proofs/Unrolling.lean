import Tablature.Proofs.Performance

namespace Tablature

/-- An entry of a timeline as the document alone gives it: where it comes from, the label of its length, and
whether it is played. -/
structure Beat where
  location : Location
  label : String
  isPlayable : Bool

/-- The label of a playable unit that is written with this tag. -/
def playableLabel (tag : String) : String :=
  match NoteLength.ofTag? tag with
  | none | some .measureLine => "1"
  | some length => length.label

def Column.beat (location : Location) (c : Column) : Beat :=
  if c.noteLength = "measureLine" then ⟨location, "0", false⟩
  else ⟨location, playableLabel c.noteLength, true⟩

def ChordSequence.beats (s t i : Nat) (q : ChordSequence) : List Beat :=
  q.pattern.strums.mapIdx fun k _ => ⟨.strum s t i k, playableLabel q.pattern.noteLength, true⟩

def Content.beats (s t : Nat) : Content → List Beat
  | .tab columns => columns.mapIdx fun c column => column.beat (.column s t c)
  | .chords sequences => (sequences.mapIdx fun i q => eachPass q.repetitions (q.beats s t i)).flatten

def Section.beats (s : Nat) (unit : Section) : List Beat :=
  (unit.subsections.mapIdx fun t b => eachPass b.repetitions (b.content.beats s t)).flatten

/-- Everything that a progression plays, unit by unit and pass by pass. An entry plays the first section with
its id, and nothing if there is none. -/
def Document.beats (d : Document) (progression : List ProgressionEntry) : List Beat :=
  progression.flatMap fun entry =>
    match d.sections.findIdx? fun unit => unit.id == entry.sectionId with
    | some s => eachPass entry.repetitions ((d.sections[s]?).elim [] (·.beats s))
    | none => []

/-- The beat that a cue gives, if it is not a mere report. -/
def Cue.beat? : Cue → Option Beat
  | strike location _ length => some ⟨location, length.label, true⟩
  | bar location _ => some ⟨location, "0", false⟩
  | report _ => none

theorem filterMap_eachPass {α β : Type} (f : α → Option β) (repetitions : UInt32) (xs : List α) :
    (eachPass repetitions xs).filterMap f = eachPass repetitions (xs.filterMap f) := by
  simp only [eachPass, List.filterMap_flatten, List.map_replicate]

theorem playableLength_label (tag : String) : (playableLength tag).1.label = playableLabel tag := by
  unfold playableLength playableLabel
  cases NoteLength.ofTag? tag with
  | none => rfl
  | some length => cases length <;> rfl

theorem Column.cues_beats (location : Location) (bpm : Float) (c : Column) :
    (c.cues location bpm).filterMap Cue.beat? = [c.beat location] := by
  unfold cues beat
  by_cases line : c.noteLength = "measureLine"
  · have isLine : c.isMeasureLine = true := beq_iff_eq.mpr line
    rw [if_pos isLine, if_pos line]
    rfl
  · have notLine : ¬c.isMeasureLine = true := fun isLine => line (beq_iff_eq.mp isLine)
    rw [if_neg notLine, if_neg line, ← playableLength_label]
    exact congrArg (List.cons _) (Cue.filterMap_reports (fun _ => rfl) _)

theorem ChordSequence.strikes_beats (bpm : Float) (s t i : Nat) (q : ChordSequence) :
    (q.strikes bpm s t i).filterMap Cue.beat? = q.beats s t i := by
  simp only [strikes, beats, List.mapIdx_eq_zipIdx_map, List.filterMap_map, ← playableLength_label]
  exact congrFun List.filterMap_eq_map _

theorem ChordSequence.cues_beats (enclosing : Float) (s t i : Nat) (q : ChordSequence) :
    (q.cues enclosing s t i).filterMap Cue.beat? = eachPass q.repetitions (q.beats s t i) := by
  rw [ChordSequence.cues, List.filterMap_append, Cue.filterMap_reports fun _ => rfl, List.nil_append,
    filterMap_eachPass, strikes_beats]

theorem Content.cues_beats (bpm : Float) (s t : Nat) (content : Content) :
    (content.cues bpm s t).filterMap Cue.beat? = content.beats s t := by
  cases content with
  | tab columns =>
    simp only [cues, beats, List.mapIdx_eq_zipIdx_map, ← List.flatMap_def, List.filterMap_flatMap,
      Column.cues_beats]
    exact List.map_eq_flatMap.symm
  | chords sequences =>
    simp only [cues, beats, List.filterMap_flatten, map_mapIdx, ChordSequence.cues_beats]

theorem Section.cues_beats (global : Float) (s : Nat) (unit : Section) :
    (unit.cues global s).filterMap Cue.beat? = unit.beats s := by
  simp only [cues, beats, Subsection.cues, List.filterMap_flatten, map_mapIdx, filterMap_eachPass,
    Content.cues_beats]

theorem Document.cues_beats (d : Document) (global : Float) (progression : List ProgressionEntry) :
    ((Program.progression progression).cues d global).filterMap Cue.beat? = d.beats progression := by
  simp only [Program.cues, beats, List.filterMap_flatMap]
  congr 1
  funext entry
  unfold ProgressionEntry.cues
  rw [section?_eq]
  cases d.sections.findIdx? fun unit => unit.id == entry.sectionId with
  | none => rfl
  | some s =>
    simp only [Option.bind_some]
    cases d.sections[s]? with
    | none => exact List.flatten_replicate_nil.symm
    | some unit => exact (filterMap_eachPass _ _ _).trans (congrArg _ (unit.cues_beats global s))

/-- The marks of cues are their beats, of which the playable ones are counted. -/
theorem Cue.number_beats (start : Nat) (cues : List Cue) :
    ((number start cues).map fun m => (m.location, m.length.label, m.index)) =
      (cues.filterMap beat?).mapIdx fun i b => (b.location, b.label,
        if b.isPlayable then some (start + ((cues.filterMap beat?).take i).countP Beat.isPlayable) else none) := by
  induction cues generalizing start with
  | nil => rfl
  | cons cue cues ih =>
    cases cue with
    | strike location bpm length =>
      have first : (strike location bpm length :: cues).filterMap beat? =
          ⟨location, length.label, true⟩ :: cues.filterMap beat? := rfl
      rw [first, List.mapIdx_cons]
      simp only [number, List.map_cons, ih, List.take_zero, List.countP_nil, List.take_succ_cons, if_true,
        Nat.add_zero, List.countP_cons, Nat.add_assoc, Nat.add_comm 1]
    | bar location bpm =>
      have first : (bar location bpm :: cues).filterMap beat? = ⟨location, "0", false⟩ :: cues.filterMap beat? := rfl
      rw [first, List.mapIdx_cons]
      simp only [number, List.map_cons, ih, List.take_succ_cons, List.countP_cons, Bool.false_eq_true, if_false,
        Nat.add_zero]
      rfl
    | report problem => exact ih start

/-- Without a cap, the timeline of a progression is its unrolling entry by entry, its end apart: the labels are
those of the tags, and the playable entries are numbered from zero. -/
theorem Document.play_unrolls (d : Document) (progression : List ProgressionEntry) (defaultBpm : Float) :
    ((d.play progression ⟨defaultBpm, none⟩).moments.dropLast.map fun m => (m.location, m.length.label, m.index)) =
      (d.beats progression).mapIdx fun i b => (b.location, b.label,
        if b.isPlayable then some (((d.beats progression).take i).countP Beat.isPlayable) else none) := by
  have marks := d.body_marks ⟨defaultBpm, none⟩ (.whole progression)
  rw [performance, Cue.perform_uncapped] at marks
  have numbered := congrArg (List.map fun m : Mark => (m.location, m.length.label, m.index)) marks
  have unrolled : (d.cues ⟨defaultBpm, none⟩ (.whole progression)).filterMap Cue.beat? = d.beats progression :=
    d.cues_beats (d.globalTempo ⟨defaultBpm, none⟩) progression
  rw [List.map_map, Cue.number_beats, unrolled] at numbered
  simp only [Clock.start, Nat.zero_add] at numbered
  exact numbered

end Tablature
