import Tablature.Proofs.FirstSights

namespace Tablature

/-- Puts what was played next behind a run. Of its reports the run takes over those that it does not have yet. -/
def Run.absorb {α : Type} (run next : Run α) : Run α :=
  { run.append next with problems := addReports run.problems next.problems }

/-- Goes on with a part, unless the run was cut short. -/
def Run.goOn {α : Type} (run : Run α) (part : Part α) : Run α :=
  if run.cut then run else run.absorb (part run.clock)

/-- The parts one after the other, in one run that absorbs each of them and so keeps a list of reports without
repeats. -/
def Part.collect {α : Type} (parts : List (Part α)) : Part α := fun clock =>
  parts.foldl Run.goOn (Part.rest clock)

/-- One pass of a subsection with a list of reports of its own. -/
def Subsection.tracedPass (cap : Option Nat) (enclosing : Float) (s t : Nat) (b : Subsection) :
    Part SubsectionPass :=
  let bpm := resolveTempo b.bpm enclosing
  match b.content with
  | .tab columns =>
    let timed := columns.zip (Column.tempos (.start bpm) columns)
    let parts := timed.mapIdx fun i (c, tempo) => c.part cap (.column s t i) tempo
    (Part.collect parts).gather fun indices => ⟨b.id, bpm, .tab columns indices⟩
  | .chords sequences =>
    let parts := sequences.mapIdx fun i q => q.part cap bpm s t i
    (Part.collect parts).gather fun passes => ⟨b.id, bpm, .chords passes⟩

def Subsection.traced (cap : Option Nat) (enclosing : Float) (s t : Nat) (b : Subsection) : Part SubsectionPass :=
  Part.collect (List.replicate (passes b.repetitions) (b.tracedPass cap enclosing s t))

def Section.tracedBody (cap : Option Nat) (global : Float) (s : Nat) (unit : Section) : Part SubsectionPass :=
  Part.collect (unit.subsections.mapIdx fun t b => b.traced cap global s t)

def Section.tracedPass (cap : Option Nat) (global : Float) (s : Nat) (unit : Section) : Part SectionPass :=
  (unit.tracedBody cap global s).gather fun subsections => ⟨unit.id, unit.title, subsections⟩

/-- What an entry adds to the loop over a progression: each pass of its section, or the report that it is
missing. -/
def ProgressionEntry.traced (d : Document) (options : Options) (entry : ProgressionEntry) :
    List (Part SectionPass) :=
  match d.section? entry.sectionId with
  | some (s, unit) =>
    List.replicate (passes entry.repetitions) (unit.tracedPass options.cap (d.globalTempo options) s)
  | none => [Part.report [⟨.missingSection entry.sectionId, none⟩]]

/-- The program played so that each column, pass, subsection and section has a list of its own, which the unit
around it absorbs. The passes of a chord sequence share one. -/
def Program.traced (d : Document) (options : Options) : Program → Part SectionPass
  | progression entries => Part.collect (entries.flatMap fun entry => entry.traced d options)
  | oneSection s unit =>
    (unit.tracedBody options.cap (d.globalTempo options) s).enclose fun passes => ⟨unit.id, unit.title, passes⟩
  | oneSubsection s unit t b =>
    (b.traced options.cap (d.globalTempo options) s t).enclose fun passes => ⟨unit.id, unit.title, passes⟩
  | oneSequence s unit t b i q =>
    ((q.part options.cap (resolveTempo b.bpm (d.globalTempo options)) s t i).enclose fun passes =>
      ⟨b.id, resolveTempo b.bpm (d.globalTempo options), .chords passes⟩).enclose fun passes =>
        ⟨unit.id, unit.title, passes⟩

/-- The reports of a run once it has ended, with the one that it was cut short last. -/
def Run.told {α : Type} (run : Run α) (options : Options) : List Diagnostic :=
  addReports run.problems (if run.cut then [⟨.truncated (options.cap.getD 0), none⟩] else [])

/-- The run with each report where it is seen first. -/
def Run.distinct {α : Type} (run : Run α) : Run α :=
  { run with problems := run.problems.eraseDups }

theorem Run.distinct_of_nodup {α : Type} {run : Run α} (apart : run.problems.Nodup) : run.distinct = run := by
  rw [distinct, eraseDups_of_nodup apart]

theorem Run.absorb_distinct {α : Type} (run next : Run α) :
    run.distinct.absorb next.distinct = (run.append next).distinct := by
  have told : addReports run.problems.eraseDups next.problems.eraseDups =
      (run.problems ++ next.problems).eraseDups := by
    rw [addReports_eq (eraseDups_nodup _), eraseDups_append_eraseDups]
  rw [absorb, distinct, distinct, told]
  rfl

theorem Run.told_distinct {α : Type} (run : Run α) (options : Options) :
    run.distinct.told options = run.diagnostics options := by
  unfold told
  rw [distinct, addReports_eq (eraseDups_nodup _)]
  exact eraseDups_append_congr (eraseDups_idem _) rfl

/-- The other part plays the same at any time, and has each report once. -/
def Part.TracedBy {α : Type} (part kept : Part α) : Prop :=
  ∀ clock, kept clock = (part clock).distinct

/-- What was played already, whatever the time. -/
def Part.done {α : Type} (run : Run α) : Part α := fun _ => run

/-- To go on with these parts one by one is to go on with the one part, each report taken once. -/
def Part.TracedByAll {α : Type} (part : Part α) (kept : List (Part α)) : Prop :=
  ∀ run : Run α, kept.foldl Run.goOn run.distinct = ((done run).andThen part run.clock).distinct

namespace Part

variable {α β : Type}

theorem TracedBy.self {part : Part α} (apart : ∀ clock, (part clock).problems.Nodup) : part.TracedBy part :=
  fun clock => (Run.distinct_of_nodup (apart clock)).symm

theorem TracedBy.single {part kept : Part α} (traced : part.TracedBy kept) : part.TracedByAll [kept] := by
  intro run
  change run.distinct.goOn kept = _
  cases ended : run.cut with
  | true =>
    have stays : (done run).andThen part run.clock = run := andThen_of_cut part ended
    rw [stays]
    exact if_pos ended
  | false =>
    have joined : (done run).andThen part run.clock = run.append (part run.clock) := andThen_of_whole part ended
    rw [joined, ← Run.absorb_distinct, ← traced]
    exact if_neg (Bool.eq_false_iff.mp ended)

theorem TracedByAll.sequential : Sequential (fun (part : Part α) kept => part.TracedByAll kept) List.flatten where
  rest := by
    intro run
    rw [andThen_rest]
    rfl
  andThen := by
    intro first second kept others front back run
    rw [List.flatten_cons, List.foldl_append, front run, back _, ← andThen_assoc]
    rfl

theorem TracedByAll.collect {part : Part α} {kept : List (Part α)} (traced : part.TracedByAll kept) :
    part.TracedBy (Part.collect kept) :=
  fun clock => traced (Part.rest clock)

/-- Parts that are traced one by one are traced together when their runs are absorbed. -/
theorem TracedBy.inOrder {parts kept : List (Part α)} (each : List.Forall₂ TracedBy parts kept) :
    (Part.inOrder parts).TracedBy (Part.collect kept) := by
  have single : List.Forall₂ (fun (part : Part α) kept => part.TracedByAll kept) parts
      (kept.map fun part => [part]) :=
    List.forall₂_map_right_iff.mpr (each.imp fun _ _ traced => traced.single)
  have all := TracedByAll.sequential.inOrder single
  rw [← List.flatMap_def, List.flatMap_singleton'] at all
  exact all.collect

theorem TracedBy.repeated {part kept : Part α} (once : part.TracedBy kept) (n : Nat) :
    (part.times n).TracedByAll (List.replicate n kept) := by
  rw [← List.flatten_replicate_singleton]
  exact TracedByAll.sequential.times once.single n

theorem TracedBy.gather {part kept : Part α} (traced : part.TracedBy kept) (unit : List α → β) :
    (part.gather unit).TracedBy (kept.gather unit) := by
  intro clock
  unfold Part.gather
  rw [traced clock]
  rfl

theorem TracedBy.enclose {part kept : Part α} (traced : part.TracedBy kept) (unit : List α → β) :
    (part.enclose unit).TracedBy (kept.enclose unit) := by
  intro clock
  unfold Part.enclose
  rw [traced clock]
  rfl

end Part

theorem problemAt_nodup (location : Location) (problem : Option Problem) : (problemAt location problem).Nodup := by
  cases problem with
  | none => exact List.nodup_nil
  | some problem => exact List.pairwise_singleton _ _

/-- A part whose cues report nothing twice never does, be it cut short or not. -/
theorem Part.Performs.traced {α : Type} {part : Part α} {cap : Option Nat} {cues : List Cue}
    (performs : part.Performs cap cues) (apart : (cues.filterMap Cue.report?).Nodup) : part.TracedBy part := by
  refine .self fun clock => ?_
  rw [performs.problems]
  exact apart.sublist (Cue.perform_problems cap cues clock).1.sublist

theorem Column.part_traced (cap : Option Nat) (location : Location) (bpm : Float) (c : Column) :
    (c.part cap location bpm).TracedBy (c.part cap location bpm) := by
  have performs : (c.part cap location bpm).Performs cap (c.cues location bpm) := fun _ => by rw [Column.part_eq]
  refine performs.traced ?_
  rw [Column.cues_problems, problems]
  split
  · exact List.nodup_nil
  · exact problemAt_nodup _ _

theorem ChordSequence.part_traced (cap : Option Nat) (enclosing : Float) (s t i : Nat) (q : ChordSequence) :
    (q.part cap enclosing s t i).TracedBy (q.part cap enclosing s t i) := by
  refine (q.part_performs cap enclosing s t i).traced ?_
  rw [ChordSequence.cues_problems]
  exact problemAt_nodup _ _

theorem Subsection.pass_traced (cap : Option Nat) (enclosing : Float) (s t : Nat) (b : Subsection) :
    (b.pass cap enclosing s t).TracedBy (b.tracedPass cap enclosing s t) := by
  unfold pass tracedPass
  cases b.content with
  | tab columns => exact .gather (.inOrder (forall₂_mapIdx_self fun i c _ => c.1.part_traced cap _ c.2)) _
  | chords sequences => exact .gather (.inOrder (forall₂_mapIdx_self fun i q _ => q.part_traced cap _ s t i)) _

theorem Subsection.part_traced (cap : Option Nat) (enclosing : Float) (s t : Nat) (b : Subsection) :
    (b.part cap enclosing s t).TracedBy (b.traced cap enclosing s t) :=
  ((b.pass_traced cap enclosing s t).repeated _).collect

theorem Section.body_traced (cap : Option Nat) (global : Float) (s : Nat) (unit : Section) :
    (unit.body cap global s).TracedBy (unit.tracedBody cap global s) :=
  .inOrder (forall₂_mapIdx_self fun t b _ => b.part_traced cap global s t)

theorem Section.pass_traced (cap : Option Nat) (global : Float) (s : Nat) (unit : Section) :
    (unit.pass cap global s).TracedBy (unit.tracedPass cap global s) :=
  (unit.body_traced cap global s).gather _

theorem ProgressionEntry.part_traced (d : Document) (options : Options) (entry : ProgressionEntry) :
    (entry.part d options).TracedByAll (entry.traced d options) := by
  unfold part traced
  cases d.section? entry.sectionId with
  | none =>
    have once (clock : Clock) : ((Part.report [⟨.missingSection entry.sectionId, none⟩] : Part SectionPass)
        clock).problems.Nodup := List.pairwise_singleton _ _
    exact (Part.TracedBy.self once).single
  | some place =>
    have once := place.2.pass_traced options.cap (d.globalTempo options) place.1
    exact once.repeated (passes entry.repetitions)

theorem Program.part_traced (d : Document) (options : Options) (program : Program) :
    (program.part d options).TracedBy (program.traced d options) := by
  cases program with
  | progression entries =>
    exact (Part.TracedByAll.sequential.inOrder_map (fun entry => entry.part_traced d options) entries).collect
  | oneSection s unit => exact (unit.body_traced _ _ s).enclose _
  | oneSubsection s unit t b => exact (b.part_traced _ _ s t).enclose _
  | oneSequence s unit t b i q => exact ((q.part_traced _ _ s t i).enclose _).enclose _

namespace Document

/-- An answer, whole or a preview and cut short or not, is what playing gives where every unit keeps a list of its
own without repeats and hands it on to the unit around it. -/
theorem answer_traced {d : Document} {r : Request} {program : Program} (found : d.program? r = some program)
    (options : Options) :
    d.answer options r =
      ⟨(program.traced d options Clock.start).units, r.close (program.traced d options Clock.start).moments,
        (program.traced d options Clock.start).told options⟩ := by
  rw [answer_found found, program.part_traced d options Clock.start, Run.told_distinct]
  rfl

/-- Without a cap the lists come out as they are read off the document. -/
theorem traced_reports (d : Document) (progression : List ProgressionEntry) (defaultBpm : Float) :
    ((Program.progression progression).traced d ⟨defaultBpm, none⟩ Clock.start).told ⟨defaultBpm, none⟩ =
      d.reports progression := by
  have found : d.program? (.whole progression) = some (.progression progression) := rfl
  rw [reports_eq, ← d.play_problems progression defaultBpm]
  exact (congrArg Playback.diagnostics (answer_traced found ⟨defaultBpm, none⟩)).symm

end Document

end Tablature
