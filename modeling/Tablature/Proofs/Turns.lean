import Tablature.Proofs.Weaving

namespace Tablature

/-- A subsection whose turn it is to play once, by its position in its section, and in which order its chord
sequences take turns in it. -/
structure SubsectionTurn where
  t : Nat
  sequences : List Nat

structure SectionTurn where
  s : Nat
  subsections : List SubsectionTurn

def Content.turns : Content → List Nat
  | .tab _ => []
  | .chords sequences => (sequences.mapIdx fun i q => List.replicate (passes q.repetitions) i).flatten

def Section.turns (unit : Section) : List SubsectionTurn :=
  (unit.subsections.mapIdx fun t b => List.replicate (passes b.repetitions) ⟨t, b.content.turns⟩).flatten

def ProgressionEntry.turns (d : Document) (entry : ProgressionEntry) : List SectionTurn :=
  match d.section? entry.sectionId with
  | some (s, unit) => List.replicate (passes entry.repetitions) ⟨s, unit.turns⟩
  | none => []

def Program.turns (d : Document) : Program → List SectionTurn
  | progression entries => entries.flatMap fun entry => entry.turns d
  | oneSection s unit => [⟨s, unit.turns⟩]
  | oneSubsection s _ t b => [⟨s, List.replicate (passes b.repetitions) ⟨t, b.content.turns⟩⟩]
  | oneSequence s _ t _ i q => [⟨s, [⟨t, List.replicate (passes q.repetitions) i⟩]⟩]

/-- Whose turn it is, pass by pass, when the request is answered. -/
def Document.turns (d : Document) (r : Request) : List SectionTurn :=
  (d.program? r).elim [] (·.turns d)

/-- A pass of the `i`-th chord sequence of `sequences`, whose strums these marks are. -/
inductive SequencePass.Plays (sequences : List ChordSequence) (enclosing : Float) (s t : Nat) :
    Nat → Bool → List Mark → SequencePass → Prop
  | mk {i q start cut marks} (placed : sequences[i]? = some q)
      (played : Follows cut marks (Cue.number start (q.strikes (resolveTempo q.bpm enclosing) s t i))) :
      Plays sequences enclosing s t i cut marks
        ⟨q.id, resolveTempo q.bpm enclosing, q.pattern, q.chords, marks.filterMap Mark.index⟩

/-- A pass of a subsection of `unit`. For a tab the marks are its columns, for chords they are those of the
passes in it. -/
inductive SubsectionPass.Plays (unit : Section) (global : Float) (s : Nat) :
    SubsectionTurn → Bool → List Mark → SubsectionPass → Prop
  | tab {t b columns start cut marks} (placed : unit.subsections[t]? = some b) (content : b.content = .tab columns)
      (played : Follows cut marks
        (Cue.number start ((Content.tab columns).cues (resolveTempo b.bpm global) s t))) :
      Plays unit global s ⟨t, []⟩ cut marks
        ⟨b.id, resolveTempo b.bpm global, .tab columns (marks.filterMap Mark.index)⟩
  | chords {t b sequences turns cut marks passes} (placed : unit.subsections[t]? = some b)
      (content : b.content = .chords sequences)
      (woven : Woven (SequencePass.Plays sequences (resolveTempo b.bpm global) s t) turns cut marks passes) :
      Plays unit global s ⟨t, turns⟩ cut marks ⟨b.id, resolveTempo b.bpm global, .chords passes⟩

inductive SectionPass.Plays (d : Document) (global : Float) : SectionTurn → Bool → List Mark → SectionPass → Prop
  | mk {s unit turns cut marks passes} (placed : d.sections[s]? = some unit)
      (woven : Woven (SubsectionPass.Plays unit global s) turns cut marks passes) :
      Plays d global ⟨s, turns⟩ cut marks ⟨unit.id, unit.title, passes⟩

theorem ChordSequence.part_weaves {sequences : List ChordSequence} {i : Nat} {q : ChordSequence}
    (placed : sequences[i]? = some q) (cap : Option Nat) (enclosing : Float) (s t : Nat) :
    (q.part cap enclosing s t i).Weaves (SequencePass.Plays sequences enclosing s t)
      (List.replicate (passes q.repetitions) i) := by
  rw [ChordSequence.part_eq]
  refine (Part.Weaves.report _).andThen (.times (.gather fun clock => ?_) _)
  rw [Cue.perform_units, Cue.filterMap_index]
  exact .mk placed (Cue.perform_follows cap _ clock)

theorem Subsection.pass_weaves {unit : Section} {t : Nat} {b : Subsection} (placed : unit.subsections[t]? = some b)
    (cap : Option Nat) (global : Float) (s : Nat) :
    (b.pass cap global s t).Weaves (SubsectionPass.Plays unit global s) [⟨t, b.content.turns⟩] := by
  unfold Subsection.pass
  cases content : b.content with
  | tab columns =>
    simp only [tabPass_eq]
    refine .gather fun clock => ?_
    rw [Cue.perform_units, Cue.filterMap_index]
    exact .tab placed content (Cue.perform_follows cap _ clock)
  | chords sequences =>
    refine .gather fun clock => .chords placed content ?_
    exact Part.Weaves.sequential.inOrder_mapIdx sequences
      (fun i q at' => ChordSequence.part_weaves at' cap (resolveTempo b.bpm global) s t) clock

theorem Subsection.part_weaves {unit : Section} {t : Nat} {b : Subsection} (placed : unit.subsections[t]? = some b)
    (cap : Option Nat) (global : Float) (s : Nat) :
    (b.part cap global s t).Weaves (SubsectionPass.Plays unit global s)
      (List.replicate (passes b.repetitions) ⟨t, b.content.turns⟩) :=
  .times (Subsection.pass_weaves placed cap global s) _

theorem Section.body_weaves (unit : Section) (cap : Option Nat) (global : Float) (s : Nat) :
    (unit.body cap global s).Weaves (SubsectionPass.Plays unit global s) unit.turns :=
  Part.Weaves.sequential.inOrder_mapIdx unit.subsections fun _ _ at' => Subsection.part_weaves at' cap global s

theorem ProgressionEntry.part_weaves (d : Document) (options : Options) (entry : ProgressionEntry) :
    (entry.part d options).Weaves (SectionPass.Plays d (d.globalTempo options)) (entry.turns d) := by
  unfold ProgressionEntry.part ProgressionEntry.turns
  cases found : d.section? entry.sectionId with
  | none => exact .report _
  | some place =>
    refine .times (.gather fun clock => ?_) _
    exact .mk (Document.section?_mem found) (place.2.body_weaves options.cap _ place.1 clock)

theorem Program.part_weaves {d : Document} {program : Program} (placed : program.Placed d) (options : Options) :
    (program.part d options).Weaves (SectionPass.Plays d (d.globalTempo options)) (program.turns d) := by
  cases placed with
  | progression entries =>
    exact Part.Weaves.sequential.inOrder_map (fun entry => entry.part_weaves d options) entries
  | @oneSection s unit atUnit =>
    exact .enclose fun clock => .mk atUnit (unit.body_weaves options.cap _ s clock)
  | @oneSubsection s t unit b atUnit atB =>
    exact .enclose fun clock => .mk atUnit (Subsection.part_weaves atB options.cap _ s clock)
  | @oneSequence s t i unit b sequences q atUnit atB content atQ =>
    refine .enclose fun clock => .mk atUnit (Part.Weaves.enclose (fun clock => ?_) clock)
    exact .chords atB content (ChordSequence.part_weaves atQ options.cap _ s t clock)

/-- The tree and the timeline of every answer are woven together: turn by turn, each pass lies over the moments
that were played in it. -/
theorem Document.answer_woven (d : Document) (options : Options) (r : Request) :
    Woven (SectionPass.Plays d (d.globalTempo options)) (d.turns r) (d.isCut options r)
      (((d.answer options r).body r).map Moment.mark) (d.answer options r).sections := by
  rw [body_marks, isCut, turns]
  cases found : d.program? r with
  | none =>
    obtain ⟨address, rfl, empty⟩ := answer_lost found
    rw [empty, performance, cues, found]
    exact .done
  | some program =>
    have woven := Program.part_weaves (program?_placed found) options Clock.start
    rw [(part_performs found options).cut, (part_performs found options).moments] at woven
    rw [answer_found found]
    exact woven

end Tablature
