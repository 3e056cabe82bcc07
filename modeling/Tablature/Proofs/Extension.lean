import Tablature.Proofs.DefaultProgression
import Tablature.Proofs.Shifting
import Tablature.Proofs.Trimming

namespace Tablature

/-- The playback says that the cap cut it short. -/
def Playback.IsTruncated (p : Playback) : Prop :=
  ∃ problem ∈ p.diagnostics, problem.kind = .truncated

namespace Document

variable (d : Document) (front back : List ProgressionEntry) (options : Options)

/-- The entries of a progression one after the other. -/
def partOf (progression : List ProgressionEntry) : Part SectionPass :=
  Part.inOrder (progression.map fun entry => entry.part d options)

/-- The run behind a progression that is played. -/
def runOf (progression : List ProgressionEntry) : Run SectionPass :=
  d.partOf options progression Clock.start

theorem play_eq (progression : List ProgressionEntry) :
    d.play progression options = ⟨(d.runOf options progression).units,
      closeTimeline (rebase (d.runOf options progression).moments),
      (d.runOf options progression).diagnostics options⟩ :=
  rfl

theorem play_runOf (progression : List ProgressionEntry) :
    (d.play progression options).sections = (d.runOf options progression).units ∧
    (d.play progression options).moments.dropLast = (d.runOf options progression).moments ∧
    (d.play progression options).diagnostics = (d.runOf options progression).diagnostics options :=
  ⟨rfl, (d.play_moments progression options).symm, rfl⟩

theorem partOf_append :
    d.partOf options (front ++ back) = (d.partOf options front).andThen (d.partOf options back) := by
  unfold partOf
  rw [List.map_append, Part.inOrder_append]

theorem runOf_cut {progression : List ProgressionEntry} :
    (d.runOf options progression).cut = true ↔ (d.play progression options).IsTruncated := by
  have found : d.program? (.whole progression) = some (.progression progression) := rfl
  have same : (d.runOf options progression).cut = d.isCut options (.whole progression) :=
    (part_performs found options).cut Clock.start
  rw [same]
  exact isCut_iff

theorem runOf_index (progression : List ProgressionEntry) :
    (d.runOf options progression).clock.index = (d.play progression options).playableCount := by
  have found : d.program? (.whole progression) = some (.progression progression) := rfl
  exact (playableCount_found found options).symm

theorem partOf_shifts (defaultBpm : Float) (progression : List ProgressionEntry) :
    (d.partOf ⟨defaultBpm, none⟩ progression).Shifts SectionPass.shift :=
  Part.Shifts.sequential.inOrder_map (f := fun _ => ()) (fun entry => entry.part_shifts d defaultBpm) progression

theorem play_append_of_truncated (truncated : (d.play front options).IsTruncated) :
    d.play (front ++ back) options = d.play front options := by
  have cut := (d.runOf_cut options).mpr truncated
  have same : d.runOf options (front ++ back) = d.runOf options front := by
    rw [runOf, partOf_append]
    exact Part.andThen_of_cut _ cut
  rw [play_eq, play_eq, same]

theorem runOf_append_of_whole (whole : ¬(d.play front options).IsTruncated) :
    d.runOf options (front ++ back) = (d.runOf options front).append
      (d.partOf options back (d.runOf options front).clock) := by
  have uncut : (d.runOf options front).cut = false := (Bool.not_eq_true _).mp (mt (d.runOf_cut options).mp whole)
  rw [runOf, partOf_append]
  exact Part.andThen_of_whole _ uncut

theorem diagnostics_append_of_whole (whole : ¬(d.play front options).IsTruncated) :
    (d.play front options).diagnostics <+: (d.play (front ++ back) options).diagnostics := by
  have uncut : (d.runOf options front).cut = false := (Bool.not_eq_true _).mp (mt (d.runOf_cut options).mp whole)
  obtain ⟨_, _, before⟩ := d.play_runOf options front
  obtain ⟨_, _, after⟩ := d.play_runOf options (front ++ back)
  rw [before, after, d.runOf_append_of_whole front back options whole]
  refine eraseDups_front ?_
  simp only [uncut, Bool.false_eq_true, if_false, List.append_nil, Run.append, List.append_assoc]
  exact List.prefix_append _ _

/-- A progression that goes on changes nothing about what is played before. If the cap was reached by then, nothing
more is played; otherwise the problems are told first that were told before. Without a cap, what is added is what
the further entries give alone, behind the units that were played before. -/
theorem play_extends :
    (d.play front options).moments.dropLast <+: (d.play (front ++ back) options).moments.dropLast ∧
    (d.play front options).sections <+: (d.play (front ++ back) options).sections ∧
    ((d.play front options).IsTruncated → d.play (front ++ back) options = d.play front options) ∧
    (¬(d.play front options).IsTruncated →
      (d.play front options).diagnostics <+: (d.play (front ++ back) options).diagnostics) ∧
    (options.cap = none →
      ((d.play (front ++ back) options).moments.dropLast.drop (d.play front options).moments.dropLast.length).map
          Moment.mark =
        (d.play back options).moments.dropLast.map (fun m => m.mark.shift (d.play front options).playableCount) ∧
      (d.play (front ++ back) options).sections.drop (d.play front options).sections.length =
        (d.play back options).sections.map (SectionPass.shift (d.play front options).playableCount)) := by
  obtain ⟨sectionsFront, momentsFront, _⟩ := d.play_runOf options front
  obtain ⟨sectionsBack, momentsBack, _⟩ := d.play_runOf options back
  obtain ⟨sections, moments, _⟩ := d.play_runOf options (front ++ back)
  by_cases truncated : (d.play front options).IsTruncated
  · have same := d.play_append_of_truncated front back options truncated
    rw [same]
    refine ⟨List.prefix_rfl, List.prefix_rfl, fun _ => rfl, fun whole => absurd truncated whole, fun uncapped => ?_⟩
    obtain ⟨defaultBpm, cap⟩ := options
    cases uncapped
    have cut := (d.runOf_cut _).mpr truncated
    rw [runOf, (d.partOf_shifts defaultBpm front).whole] at cut
    cases cut
  · have joined := d.runOf_append_of_whole front back options truncated
    refine ⟨?_, ?_, fun cut => absurd cut truncated, d.diagnostics_append_of_whole front back options,
      fun uncapped => ?_⟩
    · rw [moments, momentsFront, joined]
      exact List.prefix_append _ _
    · rw [sections, sectionsFront, joined]
      exact List.prefix_append _ _
    · obtain ⟨defaultBpm, cap⟩ := options
      cases uncapped
      have behind : (d.runOf ⟨defaultBpm, none⟩ front).clock.index =
          (d.runOf ⟨defaultBpm, none⟩ front).clock.index + Clock.start.index := rfl
      have later := (d.partOf_shifts defaultBpm back).shifted behind
      rw [← runOf_index, sections, sectionsFront, sectionsBack, moments, momentsFront, momentsBack, joined]
      simp only [Run.append, List.drop_left]
      refine ⟨?_, later.units⟩
      rw [later.marks, List.map_map]
      rfl

theorem verse_extends :
    (verseAndChorus.play [.playing "verse" 2] ⟨120.0, some 1⟩).IsTruncated ∧
    verseAndChorus.play [.playing "verse" 2, .playing "chorus" 1] ⟨120.0, some 1⟩ =
      verseAndChorus.play [.playing "verse" 2] ⟨120.0, some 1⟩ ∧
    ¬(verseAndChorus.play [.playing "lost" 1] ⟨120.0, some 0⟩).IsTruncated ∧
    (verseAndChorus.play [.playing "lost" 1] ⟨120.0, some 0⟩).diagnostics <+:
      (verseAndChorus.play [.playing "lost" 1, .playing "verse" 1] ⟨120.0, some 0⟩).diagnostics ∧
    ((verseAndChorus.play [.playing "verse" 2, .playing "chorus" 1] ⟨120.0, none⟩).moments.dropLast.drop 2).map
      Moment.mark = [⟨.column 1 0 0, 120.0, .quarter, some 2⟩] := by
  obtain ⟨_, _, stops, _, _⟩ := play_extends verseAndChorus [.playing "verse" 2] [.playing "chorus" 1] ⟨120.0, some 1⟩
  obtain ⟨_, _, _, tells, _⟩ := play_extends verseAndChorus [.playing "lost" 1] [.playing "verse" 1] ⟨120.0, some 0⟩
  obtain ⟨_, _, _, _, adds⟩ := play_extends verseAndChorus [.playing "verse" 2] [.playing "chorus" 1] ⟨120.0, none⟩
  have truncated : (verseAndChorus.play [.playing "verse" 2] ⟨120.0, some 1⟩).IsTruncated :=
    ⟨_, List.mem_singleton.mpr rfl, rfl⟩
  have whole : ¬(verseAndChorus.play [.playing "lost" 1] ⟨120.0, some 0⟩).IsTruncated := by
    rintro ⟨problem, member, kind⟩
    cases List.mem_singleton.mp member
    cases kind
  exact ⟨truncated, stops truncated, whole, tells whole, (adds rfl).1⟩

end Document

end Tablature
