import Tablature.Proofs.Performance

namespace Tablature

/-- A mark as it stands behind `n` more playable units. -/
def Mark.shift (n : Nat) (m : Mark) : Mark :=
  { m with index := m.index.map (n + ·) }

def SequencePass.shift (n : Nat) (pass : SequencePass) : SequencePass :=
  { pass with indices := pass.indices.map (n + ·) }

def SubsectionPass.shift (n : Nat) (pass : SubsectionPass) : SubsectionPass :=
  { pass with
    content := match pass.content with
      | .tab columns indices => .tab columns (indices.map (n + ·))
      | .chords passes => .chords (passes.map (SequencePass.shift n)) }

def SectionPass.shift (n : Nat) (pass : SectionPass) : SectionPass :=
  { pass with subsections := pass.subsections.map (SubsectionPass.shift n) }

/-- The run gives what another gives, behind `n` more playable units. Only the times may differ otherwise. -/
structure Run.Shifted {α : Type} (shift : Nat → α → α) (n : Nat) (run first : Run α) : Prop where
  units : run.units = first.units.map (shift n)
  marks : run.moments.map Moment.mark = (first.moments.map Moment.mark).map (Mark.shift n)
  index : run.clock.index = n + first.clock.index

/-- The part is never cut short, and gives the same at any later time. -/
structure Part.Shifts {α : Type} (shift : Nat → α → α) (part : Part α) : Prop where
  whole : ∀ clock, (part clock).cut = false
  shifted : ∀ {n : Nat} {clock later : Clock}, later.index = n + clock.index →
    (part later).Shifted shift n (part clock)

namespace Part.Shifts

variable {α β : Type} {shift : Nat → α → α}

theorem report (problems : List Diagnostic) : (Part.report problems : Part α).Shifts shift where
  whole := fun _ => rfl
  shifted := fun behind => ⟨rfl, rfl, behind⟩

theorem andThen {first second : Part α} (firstly : first.Shifts shift) (then' : second.Shifts shift) :
    (first.andThen second).Shifts shift where
  whole := by
    intro clock
    rw [andThen_of_whole second (firstly.whole clock)]
    exact then'.whole (first clock).clock
  shifted := by
    intro n clock later behind
    have front := firstly.shifted behind
    have back := then'.shifted front.index
    rw [andThen_of_whole second (firstly.whole later), andThen_of_whole second (firstly.whole clock)]
    refine ⟨?_, ?_, back.index⟩
    · simp only [Run.append, front.units, back.units, List.map_append]
    · simp only [Run.append, List.map_append, front.marks, back.marks]

theorem sequential : Sequential (fun (part : Part α) (_ : Unit) => part.Shifts shift) fun _ => () :=
  .of_property ⟨fun _ => rfl, fun behind => ⟨rfl, rfl, behind⟩⟩ andThen

/-- A unit shifts as what it gathers does. -/
theorem gather {part : Part α} (inner : part.Shifts shift) {outer : Nat → β → β} {unit : List α → β}
    (made : ∀ n units, unit (units.map (shift n)) = outer n (unit units)) : (part.gather unit).Shifts outer where
  whole := inner.whole
  shifted := by
    intro n clock later behind
    have moved := inner.shifted behind
    have gathered (clock : Clock) : (part.gather unit clock).units = [unit (part clock).units] := by
      refine (gather_units unit part clock).2 fun stopped => ?_
      rw [inner.whole clock] at stopped
      cases stopped.1
    refine ⟨?_, moved.marks, moved.index⟩
    rw [gathered, gathered, moved.units, made]
    rfl

end Part.Shifts

theorem Cue.number_shift (n start : Nat) (cues : List Cue) :
    number (n + start) cues = (number start cues).map (Mark.shift n) := by
  induction cues generalizing start with
  | nil => rfl
  | cons cue cues ih =>
    cases cue with
    | strike location bpm length =>
      simp only [number, List.map_cons, Nat.add_assoc, ih]
      rfl
    | bar location bpm =>
      simp only [number, List.map_cons, ih]
      rfl
    | report problem => exact ih start

theorem Cue.perform_shifts (cues : List Cue) : (perform none cues).Shifts (fun n index => n + index) where
  whole := perform_uncut cues
  shifted := by
    intro n clock later behind
    have marks : (perform none cues later).moments.map Moment.mark =
        ((perform none cues clock).moments.map Moment.mark).map (Mark.shift n) := by
      rw [perform_uncapped, perform_uncapped, behind, number_shift]
    have units : (perform none cues later).units = (perform none cues clock).units.map (n + ·) := by
      rw [perform_units, perform_units, filterMap_index, filterMap_index, marks, List.filterMap_map,
        List.map_filterMap]
      rfl
    refine ⟨units, marks, ?_⟩
    rw [perform_clock, perform_clock, units, List.length_map, behind, Nat.add_assoc]

theorem ChordSequence.part_shifts (enclosing : Float) (s t i : Nat) (q : ChordSequence) :
    (q.part none enclosing s t i).Shifts SequencePass.shift := by
  rw [ChordSequence.part_eq]
  refine (Part.Shifts.report _).andThen (Part.Shifts.sequential.times (a := ()) ?_ _)
  exact (Cue.perform_shifts _).gather fun _ _ => rfl

theorem Subsection.pass_shifts (global : Float) (s t : Nat) (b : Subsection) :
    (b.pass none global s t).Shifts SubsectionPass.shift := by
  unfold Subsection.pass
  cases b.content with
  | tab columns =>
    simp only [tabPass_eq]
    exact (Cue.perform_shifts _).gather fun _ _ => rfl
  | chords sequences =>
    have inner := Part.Shifts.sequential.inOrder_mapIdx (f := fun _ _ => ()) sequences fun i q _ =>
      q.part_shifts (resolveTempo b.bpm global) s t i
    simp only [chordPass]
    refine inner.gather fun _ _ => ?_
    rfl

theorem Subsection.part_shifts (global : Float) (s t : Nat) (b : Subsection) :
    (b.part none global s t).Shifts SubsectionPass.shift :=
  Part.Shifts.sequential.times (a := ()) (b.pass_shifts global s t) _

theorem Section.pass_shifts (global : Float) (s : Nat) (unit : Section) :
    (unit.pass none global s).Shifts SectionPass.shift := by
  have inner := Part.Shifts.sequential.inOrder_mapIdx (f := fun _ _ => ()) unit.subsections fun t b _ =>
    b.part_shifts global s t
  exact inner.gather fun _ _ => rfl

theorem ProgressionEntry.part_shifts (d : Document) (defaultBpm : Float) (entry : ProgressionEntry) :
    (entry.part d ⟨defaultBpm, none⟩).Shifts SectionPass.shift := by
  unfold ProgressionEntry.part
  cases d.section? entry.sectionId with
  | none => exact .report _
  | some found => exact Part.Shifts.sequential.times (a := ()) (found.2.pass_shifts _ found.1) _

end Tablature
