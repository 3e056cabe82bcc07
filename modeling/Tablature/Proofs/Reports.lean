import Tablature.Proofs.Origin

namespace Tablature

section Deduplication

variable {α : Type} [BEq α] [LawfulBEq α] {front xs : List α}

/-- What is seen later does not change what was seen first. -/
theorem eraseDups_front (isFront : front <+: xs) : front.eraseDups <+: xs.eraseDups := by
  obtain ⟨rest, rfl⟩ := isFront
  rw [List.eraseDups_append]
  exact List.prefix_append _ _

theorem eraseDups_concat_fresh {x : α} (fresh : x ∉ xs) : (xs ++ [x]).eraseDups = xs.eraseDups ++ [x] := by
  have kept : [x].removeAll xs = [x] := by
    simp only [List.removeAll, List.filter_cons_of_pos, List.filter_nil, List.elem_eq_contains,
      List.contains_eq_mem, fresh, decide_false, Bool.not_false]
  rw [List.eraseDups_append, kept]
  rfl

end Deduplication

/-- What a cue reports, if it is a report. -/
def Cue.report? : Cue → Option Diagnostic
  | report problem => some problem
  | strike .. | bar .. => none

/-- A performance reports the problems of its cues in order, all of them unless it is cut short. -/
theorem Cue.perform_problems (cap : Option Nat) (cues : List Cue) (clock : Clock) :
    Follows (perform cap cues clock).cut (perform cap cues clock).problems (cues.filterMap report?) := by
  induction cues generalizing clock with
  | nil => exact .nil
  | cons cue cues ih =>
    cases cue with
    | strike location bpm length =>
      by_cases reached : cap.any (· ≤ clock.index) = true
      · rw [perform_strike_reached reached]
        exact .stopped
      · rw [perform_strike_free reached]
        exact ih (clock.after bpm length)
    | bar location bpm => exact ih clock
    | report problem =>
      rw [perform_report]
      exact (ih clock).cons problem

theorem playableLength_problem {tag : String} {problem : Problem} (reported : (playableLength tag).2 = some problem) :
    problem.kind = .unknownNoteLength := by
  unfold playableLength at reported
  split at reported
  · split at reported
    · cases reported
    · cases reported
      rfl
  · cases reported
    rfl

/-- A cue only reports a note length or a missing section. -/
theorem Cue.Origin.reported {d : Document} {global : Float} {cue : Cue} {problem : Diagnostic}
    (origin : cue.Origin d global) (reports : cue.report? = some problem) :
    problem.kind = .unknownNoteLength ∨ problem.kind = .unresolvedSection := by
  cases origin with
  | missing id =>
    cases reports
    exact Or.inr rfl
  | column atUnit atB content atC member =>
    rcases Column.mem_cues member with ⟨_, rfl⟩ | ⟨_, rfl⟩ | ⟨p, wrong, rfl⟩
    · cases reports
    · cases reports
    · cases reports
      exact Or.inl (playableLength_problem (mem_problemAt.mp wrong).1)
  | sequence atUnit atB content atQ member =>
    rcases ChordSequence.mem_cues member with ⟨p, wrong, rfl⟩ | ⟨k, _, rfl⟩
    · cases reports
      exact Or.inl (playableLength_problem (mem_problemAt.mp wrong).1)
    · cases reports

namespace Document

variable {d : Document} {options : Options} {r : Request}

theorem met_kinds {problem : Diagnostic} (met : problem ∈ (d.performance options r).problems) :
    problem.kind = .unknownNoteLength ∨ problem.kind = .unresolvedSection := by
  obtain ⟨cue, inCues, reports⟩ := List.mem_filterMap.mp ((Cue.perform_problems _ _ _).1.subset met)
  exact (cues_origin inCues).reported reports

/-- Nothing that is met on the way says that the answer was cut short. -/
theorem met_kind {problem : Diagnostic} (met : problem ∈ (d.performance options r).problems) :
    problem.kind ≠ .truncated := by
  rcases met_kinds met with kind | kind <;> rw [kind] <;> decide

/-- The problems that are met, each once, and last that the answer was cut short, if it was. -/
theorem diagnostics_found {program : Program} (found : d.program? r = some program) :
    (d.answer options r).diagnostics = (d.performance options r).problems.eraseDups ++
      if d.isCut options r then [⟨.truncated (options.cap.getD 0), none⟩] else [] := by
  have problems := (part_performs found options).problems Clock.start
  have cut : (program.part d options Clock.start).cut = d.isCut options r :=
    (part_performs found options).cut Clock.start
  rw [answer_found found]
  simp only [Run.diagnostics, problems, cut]
  cases d.isCut options r with
  | false => simp only [Bool.false_eq_true, if_false, List.append_nil]; rfl
  | true =>
    simp only [if_true]
    exact eraseDups_concat_fresh fun met => met_kind met rfl

/-- An answer says that it was cut short exactly when it was. -/
theorem isCut_iff :
    d.isCut options r = true ↔ ∃ problem ∈ (d.answer options r).diagnostics, problem.kind = .truncated := by
  cases found : d.program? r with
  | none =>
    obtain ⟨address, rfl, empty⟩ := answer_lost found
    rw [isCut, performance, cues, found, empty]
    constructor
    · intro ended
      cases ended
    · rintro ⟨problem, member, kind⟩
      cases List.mem_singleton.mp member
      cases kind
  | some program =>
    rw [diagnostics_found found]
    constructor
    · intro ended
      rw [ended, if_pos rfl]
      exact ⟨_, List.mem_concat_self, rfl⟩
    · rintro ⟨problem, member, kind⟩
      rcases List.mem_append.mp member with met | last
      · exact absurd kind (met_kind (List.mem_eraseDups.mp met))
      · split at last
        · assumption
        · cases last

end Document

end Tablature
