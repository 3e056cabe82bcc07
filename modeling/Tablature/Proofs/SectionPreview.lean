import Tablature.Proofs.Elapsed
import Tablature.Proofs.Reports
import Tablature.Proofs.SectionLookup

namespace Tablature

/-- The cap came in front of the first moment. -/
def Playback.StoppedAtOnce (p : Playback) : Prop :=
  p.moments = [] ∧ ∃ problem ∈ p.diagnostics, problem.kind = .truncated

theorem passes_of_once {repetitions : UInt32} (once : repetitions = 0 ∨ repetitions = 1) : passes repetitions = 1 := by
  rcases once with rfl | rfl <;> rfl

namespace Document

variable {d : Document} {s : Nat} {unit : Section} {entry : ProgressionEntry}

/-- A progression of one entry that plays once is one pass of the section that it names. -/
theorem play_one (found : d.section? entry.sectionId = some (s, unit)) (once : passes entry.repetitions = 1)
    (options : Options) :
    d.play [entry] options =
      ⟨(unit.pass options.cap (d.globalTempo options) s Clock.start).units,
        closeTimeline (rebase (unit.body options.cap (d.globalTempo options) s Clock.start).moments),
        (unit.body options.cap (d.globalTempo options) s Clock.start).diagnostics options⟩ := by
  have alone : Part.inOrder [entry.part d options] = unit.pass options.cap (d.globalTempo options) s := by
    rw [Part.inOrder_cons, Part.inOrder_nil, Part.andThen_rest, entry_once found once options]
  unfold play
  rw [List.map_singleton, alone]
  rfl

theorem preview_section (here : d.sections[s]? = some unit) (options : Options) :
    d.preview ⟨s, none, none⟩ options = previewPart unit (unit.body options.cap (d.globalTempo options) s) options := by
  simp only [preview, here, Option.bind_eq_bind, Option.bind_some]
  rfl

theorem preview_section_cut (here : d.sections[s]? = some unit) (options : Options) :
    (unit.body options.cap (d.globalTempo options) s Clock.start).cut = true ↔
      ∃ problem ∈ (d.preview ⟨s, none, none⟩ options).diagnostics, problem.kind = .truncated := by
  have found : d.program? (.part ⟨s, none, none⟩) = some (.oneSection s unit) := by
    simp only [program?, here, Option.bind_eq_bind, Option.bind_some]
  have same : (unit.body options.cap (d.globalTempo options) s Clock.start).cut =
      d.isCut options (.part ⟨s, none, none⟩) := (part_performs found options).cut Clock.start
  rw [same]
  exact isCut_iff

/-- To preview a section that is the first with its id is to play it alone, whatever the cap is: played, the
timeline gets its end besides, and the pass of the section is left out where the cap stops it at once. -/
theorem preview_plays (d : Document) (options : Options) {s : Nat} {unit : Section} (here : d.sections[s]? = some unit)
    (first : ∀ j < s, ∀ other, d.sections[j]? = some other → other.id ≠ unit.id) {entry : ProgressionEntry}
    (names : entry.sectionId = unit.id) (once : entry.repetitions = 0 ∨ entry.repetitions = 1) :
    ((d.preview ⟨s, none, none⟩ options).moments = [] → (d.play [entry] options).moments = []) ∧
    (∀ last, (d.preview ⟨s, none, none⟩ options).moments.getLast? = some last →
      (d.play [entry] options).moments = (d.preview ⟨s, none, none⟩ options).moments ++
        [⟨last.location.next, last.bpm, last.length, last.elapsed + roundUp (60.0 / last.bpm) + 1.0, none⟩]) ∧
    (d.play [entry] options).diagnostics = (d.preview ⟨s, none, none⟩ options).diagnostics ∧
    (∃ subsections, (d.preview ⟨s, none, none⟩ options).sections = [⟨unit.id, unit.title, subsections⟩]) ∧
    ((d.preview ⟨s, none, none⟩ options).StoppedAtOnce → (d.play [entry] options).sections = []) ∧
    (¬(d.preview ⟨s, none, none⟩ options).StoppedAtOnce →
      (d.play [entry] options).sections = (d.preview ⟨s, none, none⟩ options).sections) := by
  have found : d.section? entry.sectionId = some (s, unit) := by
    rw [names]
    exact section?_eq_some_iff.mpr ⟨here, rfl, first⟩
  have played := play_one found (passes_of_once once) options
  have previewed := preview_section here options
  -- Only playing shifts its timeline to begin at zero, but the timeline of a section begins there already.
  have unbroken : Unbroken 0.0 (d.preview ⟨s, none, none⟩ options).moments := by
    have moments : (d.preview ⟨s, none, none⟩ options).moments =
        (d.performance options (.part ⟨s, none, none⟩)).moments := d.body_moments options (.part ⟨s, none, none⟩)
    rw [moments]
    exact d.performance_unbroken options (.part ⟨s, none, none⟩)
  have closed : (d.play [entry] options).moments = closeTimeline (d.preview ⟨s, none, none⟩ options).moments := by
    rw [← unbroken.rebase, played, previewed]
    rfl
  have stops : (d.preview ⟨s, none, none⟩ options).StoppedAtOnce ↔
      (unit.body options.cap (d.globalTempo options) s Clock.start).cut = true ∧
        (unit.body options.cap (d.globalTempo options) s Clock.start).moments = [] := by
    unfold Playback.StoppedAtOnce
    rw [← preview_section_cut here options, previewed]
    exact and_comm
  obtain ⟨leavesOut, keeps⟩ := Part.gather_units (fun passes => SectionPass.mk unit.id unit.title passes)
    (unit.body options.cap (d.globalTempo options) s) Clock.start
  refine ⟨fun empty => ?_, fun last isLast => ?_, ?_, ?_, fun stopped => ?_, fun goesOn => ?_⟩
  · rw [closed, empty]
    rfl
  · rw [closed, closeTimeline, isLast]
    rfl
  · rw [played, previewed]
    rfl
  · rw [previewed]
    exact ⟨_, rfl⟩
  · rw [played]
    exact leavesOut (stops.mp stopped)
  · rw [played, previewed]
    exact keeps (mt stops.mpr goesOn)

/-- A verse of two columns. -/
def verse : Section :=
  { id := "verse", title := "Verse"
    subsections := [{ content := .tab [.playable "a" "quarter", .playable "b" "eighth"] }] }

/-- The verse, and another section with its id. -/
def twoVerses : Document :=
  { sections := [verse, { id := "verse", title := "Second verse" }] }

theorem twoVerses_plays :
    twoVerses.sections[0]? = some verse ∧ (ProgressionEntry.playing verse.id 0).repetitions = 0 ∧
    (twoVerses.preview ⟨0, none, none⟩ ⟨90.0, some 0⟩).sections = [⟨"verse", "Verse", []⟩] ∧
    (twoVerses.play [.playing verse.id 0] ⟨90.0, some 0⟩).sections = [] ∧
    (twoVerses.play [.playing verse.id 0] ⟨90.0, some 1⟩).moments =
      [⟨.column 0 0 0, 90.0, .quarter, 0.0, some 0⟩, ⟨.column 0 0 1, 90.0, .quarter, 2.0, none⟩] := by
  have here : twoVerses.sections[0]? = some verse := rfl
  have first (j : Nat) (before : j < 0) (other : Section) (_ : twoVerses.sections[j]? = some other) :
      other.id ≠ verse.id := absurd before (Nat.not_lt_zero j)
  have names : (ProgressionEntry.playing verse.id 0).sectionId = verse.id := rfl
  obtain ⟨_, _, _, _, leftOut, _⟩ := preview_plays twoVerses ⟨90.0, some 0⟩ here first names (Or.inl rfl)
  obtain ⟨_, closed, _⟩ := preview_plays twoVerses ⟨90.0, some 1⟩ here first names (Or.inl rfl)
  have stopped : (twoVerses.preview ⟨0, none, none⟩ ⟨90.0, some 0⟩).StoppedAtOnce :=
    ⟨rfl, _, List.mem_singleton.mpr rfl, rfl⟩
  exact ⟨here, rfl, rfl, leftOut stopped, closed _ rfl⟩

end Document

end Tablature
