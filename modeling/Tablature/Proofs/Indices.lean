import Mathlib.Data.List.Basic
import Tablature.Proofs.Reports
import Tablature.Proofs.Turns

namespace Tablature

/-- The positions of the columns of a tab that are not measure lines. -/
def playedColumns (columns : List Column) : List Nat :=
  columns.zipIdx.filterMap fun (c, i) => if c.isMeasureLine then none else some i

theorem playedColumns_length (columns : List Column) :
    (playedColumns columns).length = columns.countP fun c => !c.isMeasureLine := by
  have kept (place : Column × Nat) :
      ((if place.1.isMeasureLine then none else some place.2) : Option Nat).isSome = !place.1.isMeasureLine := by
    cases place.1.isMeasureLine <;> rfl
  unfold playedColumns
  rw [List.length_filterMap_eq_countP]
  simp only [kept]
  conv => rhs; rw [← List.zipIdx_map_fst 0 columns, List.countP_map]
  rfl

theorem Column.cues_strikes (location : Location) (bpm : Float) (c : Column) :
    (c.cues location bpm).filterMap Cue.strike? = if c.isMeasureLine then [] else [(location, bpm)] := by
  unfold cues
  by_cases line : c.isMeasureLine = true
  · rw [if_pos line, if_pos line]
    rfl
  · rw [if_neg line, if_neg line]
    exact congrArg (List.cons _) (Cue.filterMap_reports (fun _ => rfl) _)

/-- The columns of a tab that are played are those that are no measure lines. -/
theorem Content.tab_strikes (bpm : Float) (s t : Nat) (columns : List Column) :
    ((Content.tab columns).cues bpm s t).filterMap Cue.strike? =
      (playedColumns columns).map fun c => (.column s t c, columnTempo bpm columns c) := by
  have each (place : Column × Nat) :
      (if place.1.isMeasureLine then [] else [(Location.column s t place.2, columnTempo bpm columns place.2)]) =
        (((if place.1.isMeasureLine then none else some place.2) : Option Nat).map fun c =>
          (Location.column s t c, columnTempo bpm columns c)).toList := by
    cases place.1.isMeasureLine <;> rfl
  simp only [cues, playedColumns, List.mapIdx_eq_zipIdx_map, ← List.flatMap_def, List.filterMap_flatMap,
    Column.cues_strikes, List.map_filterMap, each]
  exact (List.filterMap_eq_flatMap_toList ..).symm

theorem ChordSequence.strikes_strikes (bpm : Float) (s t i : Nat) (q : ChordSequence) :
    (q.strikes bpm s t i).filterMap Cue.strike? = q.pattern.strums.mapIdx fun k _ => (.strum s t i k, bpm) := by
  simp only [strikes, List.mapIdx_eq_zipIdx_map, List.filterMap_map]
  exact congrFun List.filterMap_eq_map _

/-- The indices of the passes in a tree, in order. -/
def SubsectionPass.indices (pass : SubsectionPass) : List Nat :=
  match pass.content with
  | .tab _ indices => indices
  | .chords passes => passes.flatMap SequencePass.indices

def SectionPass.indices (pass : SectionPass) : List Nat :=
  pass.subsections.flatMap SubsectionPass.indices

def Playback.indices (p : Playback) : List Nat :=
  p.sections.flatMap SectionPass.indices

/-- A pass of a chord sequence beside the timeline: it repeats the sequence, and its `j`-th index is that of a
moment at the `j`-th strum, which has the tempo of the pass. -/
def SequencePass.Shown (sequences : List ChordSequence) (moments : List Moment) (s t i : Nat)
    (pass : SequencePass) : Prop :=
  ∃ q, sequences[i]? = some q ∧ pass.id = q.id ∧ pass.pattern = q.pattern ∧ pass.chords = q.chords ∧
    ∀ (j n : Nat), pass.indices[j]? = some n →
      ∃ m ∈ moments, m.index = some n ∧ m.location = .strum s t i j ∧ m.bpm = pass.bpm

/-- A pass of a subsection beside the timeline. A tab keeps all its columns, and its `j`-th index is that of a
moment at the `j`-th column that is not a measure line. -/
def SubsectionPass.Shown (unit : Section) (moments : List Moment) (s : Nat) (turn : SubsectionTurn)
    (pass : SubsectionPass) : Prop :=
  ∃ b, unit.subsections[turn.t]? = some b ∧ pass.id = b.id ∧
    match b.content, pass.content with
    | .tab columns, .tab kept indices => kept = columns ∧ ∀ (j n : Nat), indices[j]? = some n →
        ∃ m ∈ moments, m.index = some n ∧
          ∃ c, (playedColumns columns)[j]? = some c ∧ m.location = .column s turn.t c
    | .chords sequences, .chords passes =>
      Aligned (SequencePass.Shown sequences moments s turn.t) turn.sequences passes
    | _, _ => False

def SectionPass.Shown (d : Document) (moments : List Moment) (turn : SectionTurn) (pass : SectionPass) : Prop :=
  ∃ unit, d.sections[turn.s]? = some unit ∧ pass.id = unit.id ∧ pass.title = unit.title ∧
    Aligned (SubsectionPass.Shown unit moments turn.s) turn.subsections pass.subsections

/-- Each column of a tab and each strum that can be played was played. -/
def SubsectionPass.Complete (pass : SubsectionPass) : Prop :=
  match pass.content with
  | .tab columns indices => indices.length = columns.countP fun c => !c.isMeasureLine
  | .chords passes => ∀ sequence ∈ passes, sequence.indices.length = sequence.pattern.strums.length

def SectionPass.Complete (pass : SectionPass) : Prop :=
  ∀ sub ∈ pass.subsections, sub.Complete

theorem SequencePass.Plays.indices {sequences : List ChordSequence} {enclosing : Float} {s t i : Nat} {cut : Bool}
    {marks : List Mark} {pass : SequencePass} (played : Plays sequences enclosing s t i cut marks pass) :
    pass.indices = marks.filterMap Mark.index := by
  cases played
  rfl

theorem SubsectionPass.Plays.indices {unit : Section} {global : Float} {s : Nat} {turn : SubsectionTurn} {cut : Bool}
    {marks : List Mark} {pass : SubsectionPass} (played : Plays unit global s turn cut marks pass) :
    pass.indices = marks.filterMap Mark.index := by
  cases played with
  | tab => rfl
  | chords placed content woven => exact woven.flatMap_eq fun played => played.indices

theorem SectionPass.Plays.indices {d : Document} {global : Float} {turn : SectionTurn} {cut : Bool}
    {marks : List Mark} {pass : SectionPass} (played : Plays d global turn cut marks pass) :
    pass.indices = marks.filterMap Mark.index := by
  cases played with
  | mk placed woven => exact woven.flatMap_eq fun played => played.indices

theorem SequencePass.Plays.shown {sequences : List ChordSequence} {enclosing : Float} {s t i : Nat} {cut : Bool}
    {marks : List Mark} {pass : SequencePass} (played : Plays sequences enclosing s t i cut marks pass)
    {moments : List Moment} (onTimeline : ∀ mark ∈ marks, ∃ m ∈ moments, m.mark = mark) :
    pass.Shown sequences moments s t i := by
  cases played with
  | mk placed played =>
    refine ⟨_, placed, rfl, rfl, rfl, fun j n at' => ?_⟩
    obtain ⟨mark, member, indexed, struck⟩ := played.struck at'
    obtain ⟨m, inMoments, rfl⟩ := onTimeline mark member
    rw [ChordSequence.strikes_strikes, List.getElem?_mapIdx] at struck
    obtain ⟨strum, _, place⟩ := Option.map_eq_some_iff.mp struck
    obtain ⟨location, bpm⟩ := Prod.mk.inj place
    exact ⟨m, inMoments, indexed, location.symm, bpm.symm⟩

theorem SubsectionPass.Plays.shown {unit : Section} {global : Float} {s : Nat} {turn : SubsectionTurn} {cut : Bool}
    {marks : List Mark} {pass : SubsectionPass} (played : Plays unit global s turn cut marks pass)
    {moments : List Moment} (onTimeline : ∀ mark ∈ marks, ∃ m ∈ moments, m.mark = mark) :
    pass.Shown unit moments s turn := by
  cases played with
  | @tab t b columns start cut marks placed content played =>
    refine ⟨b, placed, rfl, ?_⟩
    rw [content]
    refine ⟨rfl, fun j n at' => ?_⟩
    obtain ⟨mark, member, indexed, struck⟩ := played.struck at'
    obtain ⟨m, inMoments, rfl⟩ := onTimeline mark member
    rw [Content.tab_strikes, List.getElem?_map] at struck
    obtain ⟨c, atC, place⟩ := Option.map_eq_some_iff.mp struck
    exact ⟨m, inMoments, indexed, c, atC, (Prod.mk.inj place).1.symm⟩
  | @chords t b sequences turns cut marks passes placed content woven =>
    refine ⟨b, placed, rfl, ?_⟩
    rw [content]
    exact woven.aligned fun inStretch _ played =>
      played.shown fun mark member => onTimeline mark (inStretch mark member)

theorem SectionPass.Plays.shown {d : Document} {global : Float} {turn : SectionTurn} {cut : Bool}
    {marks : List Mark} {pass : SectionPass} (played : Plays d global turn cut marks pass)
    {moments : List Moment} (onTimeline : ∀ mark ∈ marks, ∃ m ∈ moments, m.mark = mark) :
    pass.Shown d moments turn := by
  cases played with
  | mk placed woven =>
    refine ⟨_, placed, rfl, rfl, woven.aligned fun inStretch _ played => ?_⟩
    exact played.shown fun mark member => onTimeline mark (inStretch mark member)

theorem SequencePass.Plays.complete {sequences : List ChordSequence} {enclosing : Float} {s t i : Nat}
    {marks : List Mark} {pass : SequencePass} (played : Plays sequences enclosing s t i false marks pass) :
    pass.indices.length = pass.pattern.strums.length := by
  cases played with
  | mk placed played =>
    rw [played.struck_length rfl, ChordSequence.strikes_strikes, List.length_mapIdx]

theorem SubsectionPass.Plays.complete {unit : Section} {global : Float} {s : Nat} {turn : SubsectionTurn}
    {marks : List Mark} {pass : SubsectionPass} (played : Plays unit global s turn false marks pass) :
    pass.Complete := by
  cases played with
  | tab placed content played =>
    change List.length _ = _
    rw [played.struck_length rfl, Content.tab_strikes, List.length_map, playedColumns_length]
  | chords placed content woven => exact woven.whole_units (fun played => played.complete) rfl

theorem SectionPass.Plays.complete {d : Document} {global : Float} {turn : SectionTurn} {marks : List Mark}
    {pass : SectionPass} (played : Plays d global turn false marks pass) : pass.Complete := by
  cases played with
  | mk placed woven => exact woven.whole_units (fun played => played.complete) rfl

/-- The timeline numbers its playable units from zero. -/
theorem Document.moments_indices (d : Document) (options : Options) (r : Request) :
    (d.answer options r).moments.filterMap Moment.index = List.range (d.answer options r).playableCount := by
  have played := (Cue.perform_follows options.cap (d.cues options r) Clock.start).indices
  change _ = List.range' 0 _ at played
  rw [Playback.playableCount_indices, body_indices, Cue.filterMap_index, body_marks, List.range_eq_range']
  exact played

/-- The tree holds the same indices as the timeline, in the same order. -/
theorem Document.tree_indices (d : Document) (options : Options) (r : Request) :
    (d.answer options r).indices = (d.answer options r).moments.filterMap Moment.index := by
  rw [body_indices, Cue.filterMap_index]
  exact (d.answer_woven options r).flatMap_eq fun played => played.indices

theorem Document.body_sub_moments {d : Document} {options : Options} {r : Request} {m : Moment}
    (member : m ∈ (d.answer options r).body r) : m ∈ (d.answer options r).moments := by
  cases r with
  | part address => exact member
  | whole entries => exact (List.dropLast_sublist _).subset member

/-- The tree and the timeline of an answer have the same indices, which number the playable units from zero: each
index of a pass is that of a moment at the column or strum that the pass plays there. Unless the answer says that
it was cut short, no pass lacks an index. -/
theorem Document.tree_fits_timeline (d : Document) (options : Options) (r : Request) :
    (d.answer options r).indices = List.range (d.answer options r).playableCount ∧
    (d.answer options r).moments.filterMap Moment.index = List.range (d.answer options r).playableCount ∧
    Aligned (SectionPass.Shown d (d.answer options r).moments) (d.turns r) (d.answer options r).sections ∧
    ((∀ problem ∈ (d.answer options r).diagnostics, problem.kind ≠ .truncated) →
      ∀ pass ∈ (d.answer options r).sections, pass.Complete) := by
  have woven := d.answer_woven options r
  refine ⟨(d.tree_indices options r).trans (d.moments_indices options r), d.moments_indices options r,
    woven.aligned fun inStretch _ played => played.shown fun mark member => ?_, fun untruncated => ?_⟩
  · obtain ⟨m, inBody, same⟩ := List.mem_map.mp (inStretch mark member)
    exact ⟨m, body_sub_moments inBody, same⟩
  · have whole : d.isCut options r = false := by
      rw [← Bool.not_eq_true, isCut_iff]
      rintro ⟨problem, member, kind⟩
      exact untruncated problem member kind
    exact woven.whole_units (fun played => played.complete) whole

end Tablature
