import Tablature.Playback.Expansion
import Tablature.Proofs.ColumnTempo
import Tablature.Proofs.Cue

namespace Tablature

/-- A run without the units it made. -/
def Run.timeline {α : Type} (run : Run α) : Run Empty :=
  ⟨[], run.moments, run.problems, run.cut, run.clock⟩

/-- The part gives the timeline of these cues, at whatever time it starts. -/
def Part.Performs {α : Type} (part : Part α) (cap : Option Nat) (cues : List Cue) : Prop :=
  ∀ clock, (part clock).timeline = (Cue.perform cap cues clock).timeline

namespace Part.Performs

variable {α β : Type} {cap : Option Nat}

theorem moments {part : Part α} {cues : List Cue} (whole : part.Performs cap cues) (clock : Clock) :
    (part clock).moments = (Cue.perform cap cues clock).moments :=
  congrArg (fun run : Run Empty => run.moments) (whole clock)

theorem problems {part : Part α} {cues : List Cue} (whole : part.Performs cap cues) (clock : Clock) :
    (part clock).problems = (Cue.perform cap cues clock).problems :=
  congrArg (fun run : Run Empty => run.problems) (whole clock)

theorem cut {part : Part α} {cues : List Cue} (whole : part.Performs cap cues) (clock : Clock) :
    (part clock).cut = (Cue.perform cap cues clock).cut :=
  congrArg (fun run : Run Empty => run.cut) (whole clock)

theorem clock {part : Part α} {cues : List Cue} (whole : part.Performs cap cues) (clock : Clock) :
    (part clock).clock = (Cue.perform cap cues clock).clock :=
  congrArg (fun run : Run Empty => run.clock) (whole clock)

theorem report (problems : List Diagnostic) :
    (Part.report problems : Part α).Performs cap (problems.map .report) := by
  intro clock
  rw [Cue.perform_reports]
  rfl

theorem andThen {first second : Part α} {front back : List Cue} (firstly : first.Performs cap front)
    (then' : second.Performs cap back) : (first.andThen second).Performs cap (front ++ back) := by
  intro clock
  have same := firstly clock
  rw [Cue.perform_append]
  cases ended : (first clock).cut with
  | true =>
    rw [andThen_of_cut second ended, andThen_of_cut _ ((firstly.cut clock).symm.trans ended)]
    exact same
  | false =>
    rw [andThen_of_whole second ended, andThen_of_whole _ ((firstly.cut clock).symm.trans ended),
      ← firstly.clock clock]
    have rest := then' (first clock).clock
    change (first clock).timeline.append (second (first clock).clock).timeline = _
    rw [same, rest]
    rfl

theorem sequential : Sequential (fun (part : Part α) cues => part.Performs cap cues) List.flatten where
  rest := fun _ => rfl
  andThen := fun first others => first.andThen others

theorem gather {part : Part α} {cues : List Cue} (whole : part.Performs cap cues) (unit : List α → β) :
    (part.gather unit).Performs cap cues := whole

end Part.Performs

/-- A list as often as a unit with these repetitions plays. -/
def eachPass {β : Type} (repetitions : UInt32) (xs : List β) : List β :=
  (List.replicate (passes repetitions) xs).flatten

def Column.cues (location : Location) (bpm : Float) (c : Column) : List Cue :=
  if c.isMeasureLine then [.bar location bpm]
  else
    .strike location bpm (playableLength c.noteLength).1 ::
      (problemAt location (playableLength c.noteLength).2).map .report

/-- The strums of one pass of a chord sequence. -/
def ChordSequence.strikes (bpm : Float) (s t i : Nat) (q : ChordSequence) : List Cue :=
  q.pattern.strums.mapIdx fun k _ => .strike (.strum s t i k) bpm (playableLength q.pattern.noteLength).1

def ChordSequence.cues (enclosing : Float) (s t i : Nat) (q : ChordSequence) : List Cue :=
  (problemAt (.strum s t i 0) (playableLength q.pattern.noteLength).2).map .report ++
    eachPass q.repetitions (q.strikes (resolveTempo q.bpm enclosing) s t i)

/-- One pass of a subsection whose tempo is `bpm`. -/
def Content.cues (bpm : Float) (s t : Nat) : Content → List Cue
  | .tab columns => (columns.mapIdx fun i c => c.cues (.column s t i) (columnTempo bpm columns i)).flatten
  | .chords sequences => (sequences.mapIdx fun i q => q.cues bpm s t i).flatten

def Subsection.cues (global : Float) (s t : Nat) (b : Subsection) : List Cue :=
  eachPass b.repetitions (b.content.cues (resolveTempo b.bpm global) s t)

def Section.cues (global : Float) (s : Nat) (unit : Section) : List Cue :=
  (unit.subsections.mapIdx fun t b => b.cues global s t).flatten

def ProgressionEntry.cues (d : Document) (global : Float) (entry : ProgressionEntry) : List Cue :=
  match d.section? entry.sectionId with
  | some (s, unit) => eachPass entry.repetitions (unit.cues global s)
  | none => [.report ⟨.missingSection entry.sectionId, none⟩]

theorem Document.section?_eq (d : Document) (id : String) :
    d.section? id = (d.sections.findIdx? fun unit => unit.id == id).bind fun s =>
      (d.sections[s]?).map fun unit => (s, unit) := by
  unfold section?
  rw [List.findIdx?_eq_fst_find?_zipIdx]
  cases found : List.find? _ d.sections.zipIdx with
  | none => rfl
  | some place =>
    obtain ⟨unit, s⟩ := place
    have at' := List.mk_mem_zipIdx_iff_getElem?.mp (List.mem_of_find?_eq_some found)
    simp only [Option.map_some, Option.bind_some, at']

theorem Document.section?_mem {d : Document} {id : String} {s : Nat} {unit : Section}
    (found : d.section? id = some (s, unit)) : d.sections[s]? = some unit := by
  rw [section?_eq] at found
  obtain ⟨place, _, at'⟩ := Option.bind_eq_some_iff.mp found
  obtain ⟨other, atPlace, same⟩ := Option.map_eq_some_iff.mp at'
  cases same
  exact atPlace

theorem Column.part_eq (cap : Option Nat) (location : Location) (bpm : Float) (c : Column) :
    c.part cap location bpm = Cue.perform cap (c.cues location bpm) := by
  by_cases line : c.isMeasureLine = true
  · simp only [Column.part, Column.cues, if_pos line]
    exact (Part.andThen_rest _).symm
  · simp only [Column.part, Column.cues, if_neg line, Cue.perform_cons, Cue.perform_reports]
    rfl

/-- A pass of a tab plays the cues of its columns, and keeps the indices they give. -/
theorem tabPass_eq (cap : Option Nat) (bpm : Float) (s t : Nat) (id : String) (columns : List Column) :
    tabPass cap bpm s t id columns = (Cue.perform cap ((Content.tab columns).cues bpm s t)).gather
      fun indices => ⟨id, bpm, .tab columns indices⟩ := by
  have timed := Column.timed_eq bpm columns fun i c tempo => c.part cap (.column s t i) tempo
  simp only [Column.part_eq] at timed
  simp only [tabPass, Column.part_eq, timed, Content.cues, ← Cue.inOrder_perform, map_mapIdx]

/-- The passes of a chord sequence, each of which plays its strums and keeps the indices they give. -/
theorem ChordSequence.part_eq (cap : Option Nat) (enclosing : Float) (s t i : Nat) (q : ChordSequence) :
    q.part cap enclosing s t i =
      (Part.report (problemAt (.strum s t i 0) (playableLength q.pattern.noteLength).2)).andThen
        (((Cue.perform cap (q.strikes (resolveTempo q.bpm enclosing) s t i)).gather fun indices =>
          ⟨q.id, resolveTempo q.bpm enclosing, q.pattern, q.chords, indices⟩).times (passes q.repetitions)) := by
  simp only [Cue.perform, ChordSequence.strikes, map_mapIdx]
  rfl

theorem ChordSequence.part_performs (cap : Option Nat) (enclosing : Float) (s t i : Nat) (q : ChordSequence) :
    (q.part cap enclosing s t i).Performs cap (q.cues enclosing s t i) := by
  rw [ChordSequence.part_eq]
  exact (Part.Performs.report _).andThen (Part.Performs.sequential.times (.gather (fun _ => rfl) _) _)

theorem Subsection.pass_performs (cap : Option Nat) (global : Float) (s t : Nat) (b : Subsection) :
    (b.pass cap global s t).Performs cap (b.content.cues (resolveTempo b.bpm global) s t) := by
  unfold Subsection.pass
  cases b.content with
  | tab columns =>
    simp only [tabPass_eq]
    exact .gather (fun _ => rfl) _
  | chords sequences =>
    have inner := Part.Performs.sequential.inOrder_mapIdx sequences fun i q _ =>
      q.part_performs cap (resolveTempo b.bpm global) s t i
    exact .gather inner _

theorem Subsection.part_performs (cap : Option Nat) (global : Float) (s t : Nat) (b : Subsection) :
    (b.part cap global s t).Performs cap (b.cues global s t) :=
  Part.Performs.sequential.times (b.pass_performs cap global s t) _

theorem Section.body_performs (cap : Option Nat) (global : Float) (s : Nat) (unit : Section) :
    (unit.body cap global s).Performs cap (unit.cues global s) :=
  Part.Performs.sequential.inOrder_mapIdx unit.subsections fun t b _ => b.part_performs cap global s t

theorem ProgressionEntry.part_performs (d : Document) (options : Options) (entry : ProgressionEntry) :
    (entry.part d options).Performs options.cap (entry.cues d (d.globalTempo options)) := by
  unfold ProgressionEntry.part ProgressionEntry.cues
  cases d.section? entry.sectionId with
  | none => exact .report _
  | some found =>
    have once := found.2.body_performs options.cap (d.globalTempo options) found.1
    exact Part.Performs.sequential.times (.gather once _) _

end Tablature
