import Tablature.Proofs.Reports

namespace Tablature

/-- Whether a moment is still before the unit with the index `cap`. -/
def Moment.isBefore (cap : Nat) (m : Moment) : Bool :=
  m.index != some cap

theorem rebase_takeWhile (cap : Nat) (moments : List Moment) :
    rebase (moments.takeWhile (Moment.isBefore cap)) = (rebase moments).takeWhile (Moment.isBefore cap) := by
  cases moments with
  | nil => rfl
  | cons first moments =>
    have shifted : (fun m : Moment => Moment.isBefore cap { m with elapsed := m.elapsed - first.elapsed }) =
        Moment.isBefore cap := rfl
    have later : (rebase (first :: moments)).takeWhile (Moment.isBefore cap) =
        ((first :: moments).takeWhile (Moment.isBefore cap)).map fun m =>
          { m with elapsed := m.elapsed - first.elapsed } := by
      simp only [rebase, List.head?_cons, List.takeWhile_map, Function.comp_def, shifted]
    rw [later]
    by_cases before : first.isBefore cap = true
    · rw [List.takeWhile_cons_of_pos before]
      rfl
    · rw [List.takeWhile_cons_of_neg before]
      rfl

theorem Request.settle_takeWhile (r : Request) (cap : Nat) (moments : List Moment) :
    r.settle (moments.takeWhile (Moment.isBefore cap)) = (r.settle moments).takeWhile (Moment.isBefore cap) := by
  cases r with
  | whole entries => exact rebase_takeWhile cap moments
  | part address => rfl

/-- The run is the front of a full one: up to the unit whose index is the cap, if the full one has it. -/
structure Run.CutAt (cap : Nat) (run full : Run Nat) : Prop where
  moments : run.moments = full.moments.takeWhile (Moment.isBefore cap)
  index : run.clock.index = min cap full.clock.index
  cut : run.cut = decide (cap < full.clock.index)

theorem Run.CutAt.append {cap : Nat} {run full first : Run Nat} (cutAt : run.CutAt cap full)
    (before : ∀ m ∈ first.moments, m.isBefore cap = true) : (first.append run).CutAt cap (first.append full) where
  moments := by
    simp only [Run.append]
    rw [List.takeWhile_append_of_pos before, ← cutAt.moments]
  index := cutAt.index
  cut := cutAt.cut

namespace Cue

/-- In front of the unit whose index is the cap, nothing more is played. -/
theorem perform_capped_reached {cap : Nat} {clock : Clock} (reached : clock.index = cap) (location : Location)
    (bpm : Float) (length : NoteLength) (cues : List Cue) :
    (perform (some cap) (strike location bpm length :: cues) clock).CutAt cap
      (perform none (strike location bpm length :: cues) clock) := by
  have atCap : (some cap).any (· ≤ clock.index) = true := decide_eq_true (Nat.le_of_eq reached.symm)
  rw [perform_strike_reached atCap, perform_strike_uncapped]
  have later : cap < (perform none cues (clock.after bpm length)).clock.index := by
    rw [perform_clock]
    simp only [Clock.after]
    omega
  have isCap : ¬Moment.isBefore cap ⟨location, bpm, length, clock.seconds, some clock.index⟩ = true := by
    rw [reached]
    exact fun other => bne_iff_ne.mp other rfl
  refine ⟨(List.takeWhile_cons_of_neg isCap).symm, ?_, (decide_eq_true later).symm⟩
  exact reached.trans (Nat.min_eq_left (Nat.le_of_lt later)).symm

/-- A capped performance plays on until the unit whose index is the cap. -/
theorem perform_capped {cap : Nat} (cues : List Cue) {clock : Clock} (room : clock.index ≤ cap) :
    (perform (some cap) cues clock).CutAt cap (perform none cues clock) := by
  induction cues generalizing clock with
  | nil =>
    refine ⟨rfl, (Nat.min_eq_right room).symm, ?_⟩
    exact (decide_eq_false (Nat.not_lt.mpr room)).symm
  | cons cue cues ih =>
    cases cue with
    | strike location bpm length =>
      by_cases reached : clock.index = cap
      · exact perform_capped_reached reached location bpm length cues
      · have free : ¬(some cap).any (· ≤ clock.index) = true := by
          intro atCap
          have above : cap ≤ clock.index := of_decide_eq_true atCap
          omega
        have roomAfter : (clock.after bpm length).index ≤ cap := by
          simp only [Clock.after]
          omega
        rw [perform_strike_free free, perform_strike_uncapped]
        refine (ih roomAfter).append fun m member => ?_
        rw [List.mem_singleton.mp member]
        exact bne_iff_ne.mpr fun same => reached (Option.some.inj same)
    | bar location bpm =>
      rw [perform_bar, perform_bar]
      refine (ih room).append fun m member => ?_
      rw [List.mem_singleton.mp member]
      rfl
    | report problem =>
      rw [perform_report, perform_report]
      refine (ih room).append fun m member => ?_
      cases member

end Cue

namespace Document

theorem performance_capped (d : Document) (defaultBpm : Float) (cap : Nat) (r : Request) :
    (d.performance ⟨defaultBpm, some cap⟩ r).CutAt cap (d.performance ⟨defaultBpm, none⟩ r) :=
  Cue.perform_capped (d.cues ⟨defaultBpm, none⟩ r) (Nat.zero_le cap)

theorem isCut_uncapped (d : Document) (defaultBpm : Float) (r : Request) :
    d.isCut ⟨defaultBpm, none⟩ r = false :=
  Cue.perform_uncut ..

/-- The problems that are met under a cap are the first that are met without one. -/
theorem problems_capped (d : Document) (defaultBpm : Float) (cap : Nat) (r : Request) :
    (d.performance ⟨defaultBpm, some cap⟩ r).problems <+: (d.performance ⟨defaultBpm, none⟩ r).problems := by
  have all := (Cue.perform_problems none (d.cues ⟨defaultBpm, none⟩ r) Clock.start).2 (Cue.perform_uncut ..)
  change _ <+: (Cue.perform none (d.cues ⟨defaultBpm, none⟩ r) Clock.start).problems
  rw [all]
  exact (Cue.perform_problems (some cap) (d.cues ⟨defaultBpm, none⟩ r) Clock.start).1

theorem diagnostics_capped (d : Document) (defaultBpm : Float) (cap : Nat) (r : Request) :
    ∃ met, met <+: (d.answer ⟨defaultBpm, none⟩ r).diagnostics ∧ (∀ problem ∈ met, problem.kind ≠ .truncated) ∧
      (d.answer ⟨defaultBpm, some cap⟩ r).diagnostics =
        met ++ if cap < (d.answer ⟨defaultBpm, none⟩ r).playableCount then [⟨.truncated cap, none⟩] else [] := by
  have cut : d.isCut ⟨defaultBpm, some cap⟩ r = _ := (d.performance_capped defaultBpm cap r).cut
  rw [← playableCount_eq] at cut
  cases found : d.program? r with
  | none =>
    obtain ⟨address, rfl, empty⟩ := answer_lost found
    rw [empty, empty]
    refine ⟨[⟨.nothingAt address, none⟩], List.prefix_rfl, fun problem member => ?_, rfl⟩
    cases List.mem_singleton.mp member
    exact nofun
  | some program =>
    refine ⟨(d.performance ⟨defaultBpm, some cap⟩ r).problems.eraseDups, ?_, fun problem met => ?_, ?_⟩
    · rw [diagnostics_found found, isCut_uncapped]
      exact (eraseDups_front (d.problems_capped defaultBpm cap r)).trans (List.prefix_append _ _)
    · exact met_kind (List.mem_eraseDups.mp met)
    · rw [diagnostics_found found, cut]
      simp only [decide_eq_true_eq, Option.getD_some]

/-- With a cap, an answer is the front of what it is without: its timeline stops before the unit that has the cap as
its index, and its problems are the first ones. It says last, and only then, that there was more to play. A whole
progression is closed again after its own last moment. -/
theorem cap_cuts_front (d : Document) (defaultBpm : Float) (cap : Nat) (r : Request) :
    (d.answer ⟨defaultBpm, some cap⟩ r).body r =
        ((d.answer ⟨defaultBpm, none⟩ r).body r).takeWhile (Moment.isBefore cap) ∧
      (d.answer ⟨defaultBpm, some cap⟩ r).playableCount =
        min cap (d.answer ⟨defaultBpm, none⟩ r).playableCount ∧
      (∃ met, met <+: (d.answer ⟨defaultBpm, none⟩ r).diagnostics ∧ (∀ problem ∈ met, problem.kind ≠ .truncated) ∧
        (d.answer ⟨defaultBpm, some cap⟩ r).diagnostics =
          met ++ if cap < (d.answer ⟨defaultBpm, none⟩ r).playableCount then [⟨.truncated cap, none⟩] else []) ∧
      ∀ progression, r = .whole progression → (d.answer ⟨defaultBpm, some cap⟩ r).moments =
        closeTimeline ((d.answer ⟨defaultBpm, some cap⟩ r).body r) := by
  obtain ⟨moments, index, _⟩ := d.performance_capped defaultBpm cap r
  refine ⟨?_, ?_, d.diagnostics_capped defaultBpm cap r, ?_⟩
  · rw [body_eq, body_eq, moments, Request.settle_takeWhile]
  · rw [playableCount_eq, playableCount_eq, index]
  · rintro progression rfl
    exact congrArg closeTimeline (dropLast_closeTimeline _).symm

end Document

end Tablature
