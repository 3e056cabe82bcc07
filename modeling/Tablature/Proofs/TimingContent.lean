import Tablature.Proofs.Performance

namespace Tablature

/-- The tempo, unless it cannot be played. -/
def playableTempo (bpm : Option Float) : Option Float :=
  bpm.filter isUsableTempo

/-- What of a column counts in time: the tag of its length, and the tempo that it sets if it is a measure line. -/
structure ColumnTiming where
  length : String
  tempo : Option Float
deriving DecidableEq

structure SequenceTiming where
  bpm : Option Float
  passes : Nat
  length : String
  strums : Nat
deriving DecidableEq

inductive ContentTiming where
  | tab (columns : List ColumnTiming)
  | chords (sequences : List SequenceTiming)
deriving DecidableEq

structure SubsectionTiming where
  bpm : Option Float
  passes : Nat
  content : ContentTiming
deriving DecidableEq

structure SectionTiming where
  id : String
  subsections : List SubsectionTiming
deriving DecidableEq

structure DocumentTiming where
  bpm : Option Float
  sections : List SectionTiming
deriving DecidableEq

structure EntryTiming where
  sectionId : String
  passes : Nat
deriving DecidableEq

def Column.timing (c : Column) : ColumnTiming :=
  ⟨c.noteLength, playableTempo c.measureTempo⟩

def ChordSequence.timing (q : ChordSequence) : SequenceTiming :=
  ⟨playableTempo q.bpm, passes q.repetitions, q.pattern.noteLength, q.pattern.strums.length⟩

def Content.timing : Content → ContentTiming
  | tab columns => .tab (columns.map Column.timing)
  | chords sequences => .chords (sequences.map ChordSequence.timing)

def Subsection.timing (b : Subsection) : SubsectionTiming :=
  ⟨playableTempo b.bpm, passes b.repetitions, b.content.timing⟩

def Section.timing (unit : Section) : SectionTiming :=
  ⟨unit.id, unit.subsections.map Subsection.timing⟩

/-- What of a document counts in time. Only the ids of sections are left of its texts: entries name sections by
them. -/
def Document.timing (d : Document) : DocumentTiming :=
  ⟨playableTempo d.bpm, d.sections.map Section.timing⟩

def ProgressionEntry.timing (entry : ProgressionEntry) : EntryTiming :=
  ⟨entry.sectionId, passes entry.repetitions⟩

/-- A pass without its texts. -/
def SequencePass.bare (pass : SequencePass) : SequencePass :=
  { pass with id := "", pattern := {}, chords := [] }

def SubsectionPass.bare (pass : SubsectionPass) : SubsectionPass :=
  { pass with
    id := ""
    content := match pass.content with
      | .tab _ indices => .tab [] indices
      | .chords passes => .chords (passes.map SequencePass.bare) }

def SectionPass.bare (pass : SectionPass) : SectionPass :=
  { pass with title := "", subsections := pass.subsections.map SubsectionPass.bare }

/-- The two parts give the same timeline at any time, and the same units as far as `view` shows them. -/
structure Part.Agrees {α γ : Type} (view : α → γ) (first second : Part α) : Prop where
  timeline : ∀ clock, (first clock).timeline = (second clock).timeline
  units : ∀ clock, (first clock).units.map view = (second clock).units.map view

namespace Part.Agrees

variable {α β γ δ : Type} {view : α → γ}

theorem refl (part : Part α) : part.Agrees view part :=
  ⟨fun _ => rfl, fun _ => rfl⟩

theorem cut {first second : Part α} (agrees : first.Agrees view second) (clock : Clock) :
    (first clock).cut = (second clock).cut :=
  congrArg (fun run : Run Empty => run.cut) (agrees.timeline clock)

theorem moments {first second : Part α} (agrees : first.Agrees view second) (clock : Clock) :
    (first clock).moments = (second clock).moments :=
  congrArg (fun run : Run Empty => run.moments) (agrees.timeline clock)

theorem problems {first second : Part α} (agrees : first.Agrees view second) (clock : Clock) :
    (first clock).problems = (second clock).problems :=
  congrArg (fun run : Run Empty => run.problems) (agrees.timeline clock)

theorem clock {first second : Part α} (agrees : first.Agrees view second) (clock : Clock) :
    (first clock).clock = (second clock).clock :=
  congrArg (fun run : Run Empty => run.clock) (agrees.timeline clock)

theorem andThen {first second front back : Part α} (firstly : first.Agrees view front)
    (then' : second.Agrees view back) : (first.andThen second).Agrees view (front.andThen back) := by
  have both (clock : Clock) : (first.andThen second clock).timeline = (front.andThen back clock).timeline ∧
      (first.andThen second clock).units.map view = (front.andThen back clock).units.map view := by
    cases ended : (first clock).cut with
    | true =>
      rw [andThen_of_cut second ended, andThen_of_cut back ((firstly.cut clock).symm.trans ended)]
      exact ⟨firstly.timeline clock, firstly.units clock⟩
    | false =>
      rw [andThen_of_whole second ended, andThen_of_whole back ((firstly.cut clock).symm.trans ended),
        ← firstly.clock clock]
      have timeline := then'.timeline (first clock).clock
      refine ⟨?_, ?_⟩
      · change (first clock).timeline.append (second (first clock).clock).timeline =
          (front clock).timeline.append (back (first clock).clock).timeline
        rw [firstly.timeline, timeline]
      · simp only [Run.append, List.map_append, firstly.units, then'.units]
  exact ⟨fun clock => (both clock).1, fun clock => (both clock).2⟩

theorem sequential : Sequential (Agrees view) Part.inOrder where
  rest := refl Part.rest
  andThen := fun first others => first.andThen others

/-- Units agree if they show the same of what they are made of. -/
theorem gather {part other : Part α} (inner : part.Agrees view other) {outer : β → δ} {unit unit' : List α → β}
    (made : ∀ xs ys, xs.map view = ys.map view → outer (unit xs) = outer (unit' ys)) :
    (part.gather unit).Agrees outer (other.gather unit') where
  timeline := inner.timeline
  units := by
    intro clock
    by_cases stopped : (part clock).cut = true ∧ (part clock).moments = []
    · have stopped' := stopped
      rw [inner.cut, inner.moments] at stopped'
      rw [(gather_units unit part clock).1 stopped, (gather_units unit' other clock).1 stopped']
    · have goesOn := stopped
      rw [inner.cut, inner.moments] at goesOn
      rw [(gather_units unit part clock).2 stopped, (gather_units unit' other clock).2 goesOn, List.map_singleton,
        List.map_singleton, made _ _ (inner.units clock)]

/-- Whatever else is made of the units of one part, it agrees as far as it is shown. -/
theorem gather_same (part : Part α) {outer : β → δ} {unit unit' : List α → β}
    (made : ∀ units, outer (unit units) = outer (unit' units)) :
    (part.gather unit).Agrees outer (part.gather unit') := by
  have whole : part.Agrees id part := refl part
  refine whole.gather fun xs ys shown => ?_
  rw [List.map_id, List.map_id] at shown
  rw [shown]
  exact made ys

theorem enclose {part other : Part α} (inner : part.Agrees view other) {outer : β → δ} {unit unit' : List α → β}
    (made : ∀ xs ys, xs.map view = ys.map view → outer (unit xs) = outer (unit' ys)) :
    (part.enclose unit).Agrees outer (other.enclose unit') where
  timeline := inner.timeline
  units := fun clock => congrArg (fun shown => [shown]) (made _ _ (inner.units clock))

end Part.Agrees

theorem getElem?_of_map_eq {α γ : Type} {look : α → γ} {xs ys : List α} (same : xs.map look = ys.map look) (i : Nat) :
    (xs[i]?).map look = (ys[i]?).map look := by
  rw [← List.getElem?_map, same, List.getElem?_map]

theorem rel_of_map_eq {α γ : Type} {look : α → γ} {x y : Option α} (same : x.map look = y.map look) :
    Option.Rel (fun a b => look a = look b) x y := by
  cases x with
  | none =>
    cases y with
    | none => exact .none
    | some b => cases same
  | some a =>
    cases y with
    | none => cases same
    | some b => exact .some (Option.some.inj same)

theorem rel_bind {α β : Type} {R : α → α → Prop} {S : β → β → Prop} {x y : Option α} {f g : α → Option β}
    (rel : Option.Rel R x y) (next : ∀ a b, R a b → Option.Rel S (f a) (g b)) :
    Option.Rel S (x.bind f) (y.bind g) := by
  cases rel with
  | none => exact .none
  | some related => exact next _ _ related

/-- Lists whose members look the same give related things if such members do. -/
theorem forall₂_mapIdx_of_map_eq {α β γ : Type} {look : α → γ} {R : β → β → Prop} {f g : Nat → α → β} {xs ys : List α}
    (same : xs.map look = ys.map look) (each : ∀ i x y, look x = look y → R (f i x) (g i y)) :
    List.Forall₂ R (xs.mapIdx f) (ys.mapIdx g) := by
  have length := congrArg List.length same
  rw [List.length_map, List.length_map] at length
  refine forall₂_mapIdx length fun i x y atX atY => each i x y ?_
  have looks := getElem?_of_map_eq same i
  rw [atX, atY] at looks
  exact Option.some.inj looks

theorem resolveTempo_playable (bpm : Option Float) (enclosing : Float) :
    resolveTempo bpm enclosing = (playableTempo bpm).getD enclosing := by
  cases bpm with
  | none => rfl
  | some bpm =>
    by_cases usable : isUsableTempo bpm = true
    · rw [resolveTempo, if_pos usable, playableTempo, Option.filter_some, if_pos usable, Option.getD_some]
    · rw [resolveTempo, if_neg usable, playableTempo, Option.filter_some, if_neg usable, Option.getD_none]

theorem resolveTempo_congr {bpm other : Option Float} (same : playableTempo bpm = playableTempo other)
    (enclosing : Float) : resolveTempo bpm enclosing = resolveTempo other enclosing := by
  rw [resolveTempo_playable, resolveTempo_playable, same]

theorem Column.isMeasureLine_congr {c other : Column} (same : c.timing = other.timing) :
    c.isMeasureLine = other.isMeasureLine := by
  have length : c.noteLength = other.noteLength := congrArg ColumnTiming.length same
  rw [isMeasureLine, length]
  rfl

theorem Column.cues_congr {c other : Column} (same : c.timing = other.timing) (location : Location) (bpm : Float) :
    c.cues location bpm = other.cues location bpm := by
  have length : c.noteLength = other.noteLength := congrArg ColumnTiming.length same
  unfold cues
  rw [isMeasureLine_congr same, length]

/-- The last measure line before a column sets the same tempo. -/
theorem columnTempo_congr {columns others : List Column} (same : columns.map Column.timing = others.map Column.timing)
    (declared : Float) (c : Nat) : columnTempo declared columns c = columnTempo declared others c := by
  have line : Column.isMeasureLine = (fun timing : ColumnTiming => timing.length == NoteLength.measureLine.tag) ∘
      Column.timing := rfl
  have last (columns : List Column) : (lastMeasureLine columns c).map Column.timing =
      (((columns.map Column.timing).take (c + 1)).filter fun timing =>
        timing.length == NoteLength.measureLine.tag).getLast? := by
    rw [lastMeasureLine, line, ← List.map_take, List.filter_map, List.getLast?_map]
  have tempo (columns : List Column) : playableTempo ((lastMeasureLine columns c).bind Column.measureTempo) =
      ((lastMeasureLine columns c).map Column.timing).bind ColumnTiming.tempo := by
    cases lastMeasureLine columns c <;> rfl
  refine resolveTempo_congr ?_ declared
  rw [tempo, tempo, last, last, same]

theorem tab_cues_congr {columns others : List Column} (same : columns.map Column.timing = others.map Column.timing)
    (bpm : Float) (s t : Nat) : (Content.tab columns).cues bpm s t = (Content.tab others).cues bpm s t := by
  have cues : List.Forall₂ Eq
      (columns.mapIdx fun i c => c.cues (.column s t i) (columnTempo bpm columns i))
      (others.mapIdx fun i c => c.cues (.column s t i) (columnTempo bpm others i)) := by
    refine forall₂_mapIdx_of_map_eq same fun i c other alike => ?_
    rw [columnTempo_congr same, Column.cues_congr alike]
  rw [List.forall₂_eq_eq_eq] at cues
  exact congrArg List.flatten cues

theorem ChordSequence.strikes_congr {q other : ChordSequence} (same : q.timing = other.timing) (bpm : Float)
    (s t i : Nat) : q.strikes bpm s t i = other.strikes bpm s t i := by
  have length : q.pattern.noteLength = other.pattern.noteLength := congrArg SequenceTiming.length same
  have strums : q.pattern.strums.length = other.pattern.strums.length := congrArg SequenceTiming.strums same
  have strikes : List.Forall₂ Eq (q.strikes bpm s t i) (other.strikes bpm s t i) :=
    forall₂_mapIdx strums fun k _ _ _ _ => by rw [length]
  rw [List.forall₂_eq_eq_eq] at strikes
  exact strikes

theorem ChordSequence.part_agrees {q other : ChordSequence} (same : q.timing = other.timing) (cap : Option Nat)
    (enclosing : Float) (s t i : Nat) :
    (q.part cap enclosing s t i).Agrees SequencePass.bare (other.part cap enclosing s t i) := by
  have bpm := resolveTempo_congr (congrArg SequenceTiming.bpm same) enclosing
  have passes : passes q.repetitions = passes other.repetitions := congrArg SequenceTiming.passes same
  have length : q.pattern.noteLength = other.pattern.noteLength := congrArg SequenceTiming.length same
  rw [ChordSequence.part_eq, ChordSequence.part_eq, bpm, passes, length, strikes_congr same]
  refine (Part.Agrees.refl _).andThen (Part.Agrees.sequential.times_both (.gather_same _ fun indices => ?_) _)
  rfl

/-- Contents of one timing are of one kind. -/
theorem Content.timing_cases {content other : Content} (same : content.timing = other.timing) :
    (∃ columns others, content = .tab columns ∧ other = .tab others ∧
      columns.map Column.timing = others.map Column.timing) ∨
    ∃ sequences others, content = .chords sequences ∧ other = .chords others ∧
      sequences.map ChordSequence.timing = others.map ChordSequence.timing := by
  cases content with
  | tab columns =>
    cases other with
    | tab others => exact Or.inl ⟨columns, others, rfl, rfl, ContentTiming.tab.inj same⟩
    | chords others => cases same
  | chords sequences =>
    cases other with
    | tab others => cases same
    | chords others => exact Or.inr ⟨sequences, others, rfl, rfl, ContentTiming.chords.inj same⟩

theorem Subsection.pass_agrees {b other : Subsection} (same : b.timing = other.timing) (cap : Option Nat)
    (global : Float) (s t : Nat) :
    (b.pass cap global s t).Agrees SubsectionPass.bare (other.pass cap global s t) := by
  have bpm := resolveTempo_congr (congrArg SubsectionTiming.bpm same) global
  have content : b.content.timing = other.content.timing := congrArg SubsectionTiming.content same
  unfold Subsection.pass
  rw [bpm]
  rcases Content.timing_cases content with ⟨columns, others, inB, inOther, alike⟩ |
    ⟨sequences, others, inB, inOther, alike⟩
  · rw [inB, inOther]
    simp only [tabPass_eq, tab_cues_congr alike]
    exact .gather_same _ fun _ => rfl
  · have parts : List.Forall₂ (Part.Agrees SequencePass.bare)
        (sequences.mapIdx fun i q => q.part cap (resolveTempo other.bpm global) s t i)
        (others.mapIdx fun i q => q.part cap (resolveTempo other.bpm global) s t i) :=
      forall₂_mapIdx_of_map_eq alike fun i _ _ same => ChordSequence.part_agrees same cap _ s t i
    rw [inB, inOther]
    simp only [chordPass]
    refine .gather (Part.Agrees.sequential.inOrder parts) fun xs ys shown => ?_
    simp only [SubsectionPass.bare, shown]

theorem Subsection.part_agrees {b other : Subsection} (same : b.timing = other.timing) (cap : Option Nat)
    (global : Float) (s t : Nat) :
    (b.part cap global s t).Agrees SubsectionPass.bare (other.part cap global s t) := by
  have passes : passes b.repetitions = passes other.repetitions := congrArg SubsectionTiming.passes same
  unfold Subsection.part
  rw [passes]
  exact Part.Agrees.sequential.times_both (pass_agrees same cap global s t) _

theorem Section.body_agrees {unit other : Section} (same : unit.timing = other.timing) (cap : Option Nat)
    (global : Float) (s : Nat) :
    (unit.body cap global s).Agrees SubsectionPass.bare (other.body cap global s) :=
  Part.Agrees.sequential.inOrder <|
    forall₂_mapIdx_of_map_eq (congrArg SectionTiming.subsections same) fun t _ _ alike =>
      Subsection.part_agrees alike cap global s t

/-- Sections of one timing make passes that look the same from passes of subsections that do. -/
theorem Section.bare_congr {unit other : Section} (same : unit.timing = other.timing) {xs ys : List SubsectionPass}
    (shown : xs.map SubsectionPass.bare = ys.map SubsectionPass.bare) :
    (SectionPass.mk unit.id unit.title xs).bare = (SectionPass.mk other.id other.title ys).bare := by
  have id : unit.id = other.id := congrArg SectionTiming.id same
  simp only [SectionPass.bare, id, shown]

namespace Document

variable {d e : Document} (same : d.timing = e.timing)

include same

theorem globalTempo_congr (options : Options) : d.globalTempo options = e.globalTempo options :=
  resolveTempo_congr (congrArg DocumentTiming.bpm same) _

theorem section?_congr (id : String) :
    (d.section? id).map (fun found => (found.1, found.2.timing)) =
      (e.section? id).map fun found => (found.1, found.2.timing) := by
  have sections : d.sections.map Section.timing = e.sections.map Section.timing := congrArg DocumentTiming.sections same
  have look (d : Document) : (d.section? id).map (fun found => (found.1, found.2.timing)) =
      ((d.sections.map Section.timing).zipIdx.find? fun (timing, _) => timing.id == id).map fun (timing, i) =>
        (i, timing) := by
    unfold section?
    rw [List.zipIdx_map, List.find?_map, Option.map_map, Option.map_map]
    rfl
  rw [look, look, sections]

theorem entry_agrees {entry other : ProgressionEntry} (alike : entry.timing = other.timing) (options : Options) :
    (entry.part d options).Agrees SectionPass.bare (other.part e options) := by
  have id : entry.sectionId = other.sectionId := congrArg EntryTiming.sectionId alike
  have passes : passes entry.repetitions = passes other.repetitions := congrArg EntryTiming.passes alike
  have found := rel_of_map_eq (section?_congr same other.sectionId)
  unfold ProgressionEntry.part
  rw [id, passes, globalTempo_congr same]
  revert found
  cases d.section? other.sectionId <;> cases e.section? other.sectionId <;> rintro ⟨⟩
  · exact .refl _
  · rename_i here there look
    obtain ⟨s, unit⟩ := here
    obtain ⟨place, there⟩ := there
    obtain ⟨rfl, timing⟩ := Prod.mk.inj look
    have body := Section.body_agrees timing options.cap (e.globalTempo options) s
    exact Part.Agrees.sequential.times_both (body.gather fun xs ys shown => Section.bare_congr timing shown) _

/-- What an address names in both documents agrees, if it names anything. -/
theorem program_agrees (address : Address) :
    Option.Rel (fun here there : Program => ∀ options, (here.part d options).Agrees SectionPass.bare
      (there.part e options)) (d.program? (.part address)) (e.program? (.part address)) := by
  have sections : d.sections.map Section.timing = e.sections.map Section.timing := congrArg DocumentTiming.sections same
  have global := globalTempo_congr same
  obtain ⟨s, t?, i?⟩ := address
  refine rel_bind (rel_of_map_eq (getElem?_of_map_eq sections s)) fun unit other alike => ?_
  have inside (t : Nat) := rel_of_map_eq (getElem?_of_map_eq (congrArg SectionTiming.subsections alike) t)
  cases t? with
  | none =>
    cases i? with
    | none =>
      refine .some fun options => ?_
      simp only [Program.part, global]
      exact (Section.body_agrees alike _ _ s).enclose fun xs ys shown => Section.bare_congr alike shown
    | some i => exact .none
  | some t =>
    cases i? with
    | none =>
      simp only [Option.map_eq_bind]
      refine rel_bind (inside t) fun b there timing => .some fun options => ?_
      simp only [Program.part, global]
      exact (Subsection.part_agrees timing _ _ s t).enclose fun xs ys shown => Section.bare_congr alike shown
    | some i =>
      refine rel_bind (inside t) fun b there timing => ?_
      have content : b.content.timing = there.content.timing := congrArg SubsectionTiming.content timing
      have bpm := resolveTempo_congr (congrArg SubsectionTiming.bpm timing)
      rcases Content.timing_cases content with ⟨columns, others, inB, inThere, _⟩ |
        ⟨sequences, others, inB, inThere, look⟩
      · rw [inB, inThere]
        exact .none
      · rw [inB, inThere]
        simp only [Option.map_eq_bind]
        refine rel_bind (rel_of_map_eq (getElem?_of_map_eq look i)) fun q other same => .some fun options => ?_
        simp only [Program.part, global, bpm]
        refine .enclose (.enclose (ChordSequence.part_agrees same _ _ s t i) fun xs ys shown => ?_) fun xs ys shown =>
          Section.bare_congr alike shown
        simp only [SubsectionPass.bare, shown]

end Document

/-- A playback without the texts of its tree. -/
def Playback.bare (p : Playback) : Playback :=
  { p with sections := p.sections.map SectionPass.bare }

theorem Program.answer_congr {d e : Document} {here there : Program} {options : Options}
    (agrees : (here.part d options).Agrees SectionPass.bare (there.part e options)) (r : Request) :
    Playback.bare ⟨(here.part d options Clock.start).units, r.close (here.part d options Clock.start).moments,
        (here.part d options Clock.start).diagnostics options⟩ =
      Playback.bare ⟨(there.part e options Clock.start).units, r.close (there.part e options Clock.start).moments,
        (there.part e options Clock.start).diagnostics options⟩ := by
  simp only [Playback.bare, Run.diagnostics, agrees.units, agrees.moments, agrees.problems, agrees.cut]

/-- Documents of one timing play alike, by progressions of one timing: everything is the same but the texts in the
tree. The same holds for whatever is played alone. -/
theorem Document.play_timing {d e : Document} (same : d.timing = e.timing) (options : Options) :
    (∀ progression other : List ProgressionEntry,
      progression.map ProgressionEntry.timing = other.map ProgressionEntry.timing →
        (d.play progression options).bare = (e.play other options).bare) ∧
    ∀ address, (d.preview address options).bare = (e.preview address options).bare := by
  refine ⟨fun progression other alike => ?_, fun address => ?_⟩
  · have entries : List.Forall₂ (fun entry there => ProgressionEntry.timing entry = ProgressionEntry.timing there)
        progression other := by
      rw [← List.forall₂_map_right_iff, ← List.forall₂_map_left_iff, List.forall₂_eq_eq_eq]
      exact alike
    have parts : List.Forall₂ (Part.Agrees SectionPass.bare) (progression.map fun entry => entry.part d options)
        (other.map fun entry => entry.part e options) := by
      rw [List.forall₂_map_right_iff, List.forall₂_map_left_iff]
      exact entries.imp fun _ _ timing => entry_agrees same timing options
    have agrees : ((Program.progression progression).part d options).Agrees SectionPass.bare
        ((Program.progression other).part e options) := Part.Agrees.sequential.inOrder parts
    exact Program.answer_congr agrees (.whole [])
  · have named := program_agrees same address
    rw [d.preview_eq, e.preview_eq]
    revert named
    cases d.program? (.part address) <;> cases e.program? (.part address) <;> rintro ⟨⟩
    · rfl
    · rename_i agrees
      exact Program.answer_congr (agrees options) (.part address)

namespace Document

/-- A measure line and one column, and two strums. -/
def plainParts : List Subsection :=
  [{ content := .tab [⟨.off, Vector.replicate 6 "", "90", "measureLine", "m", false⟩, .playable "a" "quarter"] },
    { content := .chords [{ pattern := { noteLength := "eighth", strums := [{}, {}] } }] }]

/-- The same with other texts: the measure line writes its tempo in another way, and the second strum is a rest. -/
def adornedParts : List Subsection :=
  [{ id := "riff", repetitions := 1
     content := .tab [⟨.off, Vector.replicate 6 "|", " 90.0", "measureLine", "n", false⟩,
       ⟨.start, Vector.replicate 6 "3", "60", "quarter", "b", true⟩] },
    { bpm := some (-7.0)
      content := .chords [{ id := "chords", chords := ["C"]
                            pattern := ⟨"rock", "eighth", [⟨.start, "v"⟩, ⟨.off, "r"⟩]⟩ }] }]

def plainTab : Document :=
  { sections := [{ id := "verse", subsections := plainParts }] }

def adornedTab : Document :=
  { title := "Adorned", sections := [{ id := "verse", title := "Verse", subsections := adornedParts }] }

theorem adornedTab_plays :
    plainTab.timing = adornedTab.timing ∧
    (plainTab.play [.playing "verse" 0] ⟨120.0, some 2⟩).bare =
      (adornedTab.play [⟨"entry", "verse", "Verse", 1⟩] ⟨120.0, some 2⟩).bare ∧
    (adornedTab.play [⟨"entry", "verse", "Verse", 1⟩] ⟨120.0, some 2⟩).moments.map Moment.bpm =
      [90.0, 90.0, 120.0, 120.0] ∧
    (plainTab.preview ⟨0, some 1, some 0⟩ ⟨120.0, none⟩).bare =
      (adornedTab.preview ⟨0, some 1, some 0⟩ ⟨120.0, none⟩).bare := by
  have same : plainTab.timing = adornedTab.timing := by decide
  have alike : [ProgressionEntry.playing "verse" 0].map ProgressionEntry.timing =
      [(⟨"entry", "verse", "Verse", 1⟩ : ProgressionEntry)].map ProgressionEntry.timing := by decide
  exact ⟨same, (play_timing same ⟨120.0, some 2⟩).1 _ _ alike, by decide, (play_timing same ⟨120.0, none⟩).2 _⟩

end Document

end Tablature
