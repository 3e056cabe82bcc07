import Tablature.Proofs.Double.Parts
import Tablature.Proofs.Origin

namespace Tablature

/-- When the moment after this one begins. A measure line takes no time. -/
def Moment.ending (m : Moment) : Float :=
  if m.length = .measureLine then m.elapsed else m.elapsed + m.length.secondsAt m.bpm

/-- Each moment begins when the one before it ends, and the first at `start`. -/
def Unbroken : Float → List Moment → Prop
  | _, [] => True
  | start, m :: moments => m.elapsed = start ∧ Unbroken m.ending moments

theorem Unbroken.next {start : Float} {moments : List Moment} (unbroken : Unbroken start moments) {i : Nat}
    {m after : Moment} (here : moments[i]? = some m) (there : moments[i + 1]? = some after) :
    after.elapsed = m.ending := by
  induction moments generalizing start i with
  | nil => cases here
  | cons first moments ih =>
    cases i with
    | succ i => exact ih unbroken.2 here there
    | zero =>
      cases here
      cases moments with
      | nil => cases there
      | cons second moments =>
        cases there
        exact unbroken.2.1

theorem playableLength_isPlayable (tag : String) : (playableLength tag).1.isPlayable = true := by
  unfold playableLength
  split
  · split
    · assumption
    · rfl
  · rfl

/-- A unit that is played takes time. -/
def Cue.TakesTime : Cue → Prop
  | strike _ _ length => length.isPlayable = true
  | bar .. | report _ => True

theorem Cue.Origin.takesTime {d : Document} {global : Float} {cue : Cue} (origin : cue.Origin d global) :
    cue.TakesTime := by
  cases origin with
  | missing id => trivial
  | @column s t i unit b columns c cue atUnit atB content atC member =>
    rcases Column.mem_cues member with ⟨_, rfl⟩ | ⟨_, rfl⟩ | ⟨p, _, rfl⟩
    · trivial
    · exact playableLength_isPlayable c.noteLength
    · trivial
  | @sequence s t i unit b sequences q cue atUnit atB content atQ member =>
    rcases ChordSequence.mem_cues member with ⟨p, _, rfl⟩ | ⟨k, _, rfl⟩
    · trivial
    · exact playableLength_isPlayable q.pattern.noteLength

namespace Cue

variable {cues : List Cue} (timed : ∀ cue ∈ cues, cue.TakesTime) (cap : Option Nat) (clock : Clock)

include timed

/-- The clock that goes through a performance loses no time and gains none. -/
theorem perform_unbroken : Unbroken clock.seconds (perform cap cues clock).moments := by
  induction cues generalizing clock with
  | nil => trivial
  | cons cue cues ih =>
    have later := ih fun cue member => timed cue (List.mem_cons_of_mem _ member)
    cases cue with
    | strike location bpm length =>
      by_cases reached : cap.any (· ≤ clock.index) = true
      · rw [perform_strike_reached reached]
        trivial
      · have playable : length.isPlayable = true := timed _ List.mem_cons_self
        have ending : Moment.ending ⟨location, bpm, length, clock.seconds, some clock.index⟩ =
            (clock.after bpm length).seconds := if_neg (bne_iff_ne.mp playable)
        rw [perform_strike_free reached]
        refine ⟨rfl, ?_⟩
        rw [ending]
        exact later (clock.after bpm length)
    | bar location bpm =>
      rw [perform_bar]
      exact ⟨rfl, later clock⟩
    | report problem =>
      rw [perform_report]
      exact later clock

/-- The moments without an index are the measure lines. -/
theorem perform_lines {m : Moment} (member : m ∈ (perform cap cues clock).moments) :
    m.index = none ↔ m.length = .measureLine := by
  induction cues generalizing clock with
  | nil => cases member
  | cons cue cues ih =>
    have later := ih fun cue member => timed cue (List.mem_cons_of_mem _ member)
    cases cue with
    | strike location bpm length =>
      by_cases reached : cap.any (· ≤ clock.index) = true
      · rw [perform_strike_reached reached] at member
        cases member
      · rw [perform_strike_free reached] at member
        rcases List.mem_cons.mp member with rfl | member
        · have playable : length.isPlayable = true := timed _ List.mem_cons_self
          exact iff_of_false nofun (bne_iff_ne.mp playable)
        · exact later (clock.after bpm length) member
    | bar location bpm =>
      rw [perform_bar] at member
      rcases List.mem_cons.mp member with rfl | member
      · exact iff_of_true rfl rfl
      · exact later clock member
    | report problem =>
      rw [perform_report] at member
      exact later clock member

end Cue

/-- A timeline that begins at zero is not shifted. -/
theorem Unbroken.rebase {moments : List Moment} (unbroken : Unbroken 0.0 moments) : rebase moments = moments := by
  cases moments with
  | nil => rfl
  | cons first moments =>
    simp only [Tablature.rebase, List.head?_cons, unbroken.1, Double.sub_zero, List.map_id']

namespace Document

variable (d : Document) (options : Options) (r : Request)

theorem performance_unbroken : Unbroken 0.0 (d.performance options r).moments :=
  Cue.perform_unbroken (fun _ member => (cues_origin member).takesTime) options.cap Clock.start

/-- The times of an answer are those of its clock. -/
theorem body_moments : (d.answer options r).body r = (d.performance options r).moments := by
  rw [body_eq]
  cases r with
  | whole entries => exact (d.performance_unbroken options (.whole entries)).rebase
  | part address => rfl

theorem moments_close : (d.answer options r).moments = (d.answer options r).body r ++
    match r with
    | .whole _ => (((d.answer options r).body r).getLast?.map endAfter).toList
    | .part _ => [] := by
  cases r with
  | whole entries =>
    change closeTimeline _ = (closeTimeline _).dropLast ++ ((closeTimeline _).dropLast.getLast?.map endAfter).toList
    rw [dropLast_closeTimeline]
    rfl
  | part address => exact (List.append_nil _).symm

/-- The clock of an answer starts at zero and goes on from each moment by the time that it takes at its own tempo,
which is none for a measure line, whatever unit the next moment belongs to. Only a whole progression, and only
one with a moment in it, has an end, after the last of them. -/
theorem clock_runs_on :
    (∀ first, ((d.answer options r).body r).head? = some first → first.elapsed = 0.0) ∧
    (∀ (i : Nat) (m after : Moment), ((d.answer options r).body r)[i]? = some m →
      ((d.answer options r).body r)[i + 1]? = some after →
      after.elapsed = if m.index = none then m.elapsed else m.elapsed + 60.0 / (m.bpm / m.length.beats)) ∧
    (∀ m ∈ (d.answer options r).body r, m.index = none ↔ m.length = .measureLine) ∧
    (d.answer options r).moments = (d.answer options r).body r ++
      match r with
      | .whole _ => (((d.answer options r).body r).getLast?.map fun last =>
          ⟨last.location.next, last.bpm, last.length, last.elapsed + roundUp (60.0 / last.bpm) + 1.0, none⟩).toList
      | .part _ => [] := by
  have unbroken := d.performance_unbroken options r
  have lines : ∀ m ∈ (d.performance options r).moments, m.index = none ↔ m.length = .measureLine := fun m member =>
    Cue.perform_lines (fun _ inCues => (cues_origin inCues).takesTime) options.cap Clock.start member
  refine ⟨?_, ?_, ?_, d.moments_close options r⟩
  · rw [body_moments]
    intro first isFirst
    cases same : (d.performance options r).moments with
    | nil => rw [same] at isFirst; cases isFirst
    | cons m moments =>
      rw [same] at isFirst unbroken
      cases isFirst
      exact unbroken.1
  · rw [body_moments]
    intro i m after here there
    rw [unbroken.next here there]
    simp only [Moment.ending, lines m (List.mem_of_getElem? here)]
    rfl
  · rw [body_moments]
    exact lines

end Document

end Tablature
