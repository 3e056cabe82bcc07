import Tablature.Proofs.Sequencing

namespace Tablature

/-- One instruction for a timeline, before it is known when it comes: to play a unit, to pass a measure
line, or to report a problem. -/
inductive Cue where
  | strike (location : Location) (bpm : Float) (length : NoteLength)
  | bar (location : Location) (bpm : Float)
  | report (diagnostic : Diagnostic)

/-- A moment apart from when it comes. -/
structure Mark where
  location : Location
  bpm : Float
  length : NoteLength
  index : Option Nat
deriving DecidableEq

def Moment.mark (m : Moment) : Mark :=
  ⟨m.location, m.bpm, m.length, m.index⟩

/-- The index of a playable unit with its place and tempo. -/
def Mark.strike? (m : Mark) : Option (Nat × Location × Float) :=
  m.index.map fun n => (n, m.location, m.bpm)

/-- `played` is what is left of `full` when playing may be cut short. -/
def Follows {α : Type} (cut : Bool) (played full : List α) : Prop :=
  played <+: full ∧ (cut = false → played = full)

namespace Follows

variable {α : Type} {cut : Bool} {played full : List α}

theorem nil : Follows cut ([] : List α) [] :=
  ⟨List.nil_prefix, fun _ => rfl⟩

theorem stopped : Follows true [] full :=
  ⟨List.nil_prefix, nofun⟩

theorem cons (x : α) (follows : Follows cut played full) : Follows cut (x :: played) (x :: full) :=
  ⟨(List.prefix_cons_inj x).mpr follows.1, fun whole => congrArg (List.cons x) (follows.2 whole)⟩

end Follows

namespace Cue

def part (cap : Option Nat) : Cue → Part Nat
  | strike location bpm length => Part.strike cap location bpm length
  | bar location bpm => Part.bar location bpm
  | report diagnostic => Part.report [diagnostic]

theorem filterMap_index (moments : List Moment) :
    moments.filterMap Moment.index = (moments.map Moment.mark).filterMap Mark.index := by
  rw [List.filterMap_map]
  rfl

/-- Reports give nothing to what looks at other cues only. -/
theorem filterMap_reports {β : Type} {read : Cue → Option β} (silent : ∀ problem, read (report problem) = none)
    (problems : List Diagnostic) : (problems.map report).filterMap read = [] := by
  rw [List.filterMap_map, List.filterMap_eq_nil_iff]
  intro problem _
  exact silent problem

/-- Plays cues one after the other. -/
def perform (cap : Option Nat) (cues : List Cue) : Part Nat :=
  Part.inOrder (cues.map (part cap))

/-- What cues leave on a timeline when nothing cuts them short and the next playable unit has the index
`start`. -/
def number (start : Nat) : List Cue → List Mark
  | [] => []
  | strike location bpm length :: cues => ⟨location, bpm, length, some start⟩ :: number (start + 1) cues
  | bar location bpm :: cues => ⟨location, bpm, .measureLine, none⟩ :: number start cues
  | report _ :: cues => number start cues

/-- A mark was left by a cue for it. -/
theorem mem_number {start : Nat} {cues : List Cue} {m : Mark} (member : m ∈ number start cues) :
    strike m.location m.bpm m.length ∈ cues ∨
      bar m.location m.bpm ∈ cues ∧ m.length = .measureLine ∧ m.index = none := by
  induction cues generalizing start with
  | nil => cases member
  | cons cue cues ih =>
    have later {start : Nat} (member : m ∈ number start cues) : strike m.location m.bpm m.length ∈ cue :: cues ∨
        bar m.location m.bpm ∈ cue :: cues ∧ m.length = .measureLine ∧ m.index = none :=
      (ih member).imp (List.mem_cons_of_mem _) fun barred => ⟨List.mem_cons_of_mem _ barred.1, barred.2⟩
    cases cue with
    | strike location bpm length =>
      rcases List.mem_cons.mp member with rfl | member
      · exact Or.inl List.mem_cons_self
      · exact later member
    | bar location bpm =>
      rcases List.mem_cons.mp member with rfl | member
      · exact Or.inr ⟨List.mem_cons_self, rfl, rfl⟩
      · exact later member
    | report problem => exact later member

theorem perform_cons (cap : Option Nat) (cue : Cue) (cues : List Cue) :
    perform cap (cue :: cues) = (cue.part cap).andThen (perform cap cues) := rfl

theorem perform_append (cap : Option Nat) (front back : List Cue) :
    perform cap (front ++ back) = (perform cap front).andThen (perform cap back) := by
  simp only [perform, List.map_append, Part.inOrder_append]

theorem perform_reports (cap : Option Nat) (problems : List Diagnostic) :
    perform cap (problems.map report) = Part.report problems := by
  induction problems with
  | nil => rfl
  | cons problem problems ih => rw [List.map_cons, perform_cons, ih]; rfl

theorem inOrder_perform (cap : Option Nat) (groups : List (List Cue)) :
    Part.inOrder (groups.map (perform cap)) = perform cap groups.flatten := by
  induction groups with
  | nil => rfl
  | cons cues groups ih => rw [List.map_cons, Part.inOrder_cons, ih, List.flatten_cons, perform_append]

theorem perform_strike_reached {cap : Option Nat} {clock : Clock} (reached : cap.any (· ≤ clock.index) = true)
    (location : Location) (bpm : Float) (length : NoteLength) (cues : List Cue) :
    perform cap (strike location bpm length :: cues) clock = ⟨[], [], [], true, clock⟩ := by
  simp only [perform_cons, part, Part.andThen, Part.strike, reached, if_true]

theorem perform_strike_free {cap : Option Nat} {clock : Clock} (free : ¬cap.any (· ≤ clock.index) = true)
    (location : Location) (bpm : Float) (length : NoteLength) (cues : List Cue) :
    perform cap (strike location bpm length :: cues) clock =
      Run.append ⟨[clock.index], [⟨location, bpm, length, clock.seconds, some clock.index⟩], [], false,
        clock.after bpm length⟩ (perform cap cues (clock.after bpm length)) := by
  simp only [perform_cons, part, Part.andThen, Part.strike, if_neg free, Bool.false_eq_true, if_false]

theorem perform_strike_uncapped (clock : Clock) (location : Location) (bpm : Float) (length : NoteLength)
    (cues : List Cue) :
    perform none (strike location bpm length :: cues) clock =
      Run.append ⟨[clock.index], [⟨location, bpm, length, clock.seconds, some clock.index⟩], [], false,
        clock.after bpm length⟩ (perform none cues (clock.after bpm length)) := rfl

theorem perform_bar (cap : Option Nat) (clock : Clock) (location : Location) (bpm : Float) (cues : List Cue) :
    perform cap (bar location bpm :: cues) clock =
      Run.append ⟨[], [⟨location, bpm, .measureLine, clock.seconds, none⟩], [], false, clock⟩
        (perform cap cues clock) := rfl

theorem perform_report (cap : Option Nat) (clock : Clock) (problem : Diagnostic) (cues : List Cue) :
    perform cap (report problem :: cues) clock =
      Run.append ⟨[], [], [problem], false, clock⟩ (perform cap cues clock) := rfl

/-- The units of a performance are the indices of its moments. -/
theorem perform_units (cap : Option Nat) (cues : List Cue) (clock : Clock) :
    (perform cap cues clock).units = (perform cap cues clock).moments.filterMap Moment.index := by
  induction cues generalizing clock with
  | nil => rfl
  | cons cue cues ih =>
    cases cue with
    | strike location bpm length =>
      by_cases reached : cap.any (· ≤ clock.index) = true
      · rw [perform_strike_reached reached]; rfl
      · rw [perform_strike_free reached]
        simp only [Run.append, ih]
        rfl
    | bar location bpm =>
      rw [perform_bar]
      simp only [Run.append, ih, List.nil_append, List.singleton_append, List.filterMap_cons_none]
    | report problem =>
      rw [perform_report]
      simp only [Run.append, ih, List.nil_append]

theorem perform_clock (cap : Option Nat) (cues : List Cue) (clock : Clock) :
    (perform cap cues clock).clock.index = clock.index + (perform cap cues clock).units.length := by
  induction cues generalizing clock with
  | nil => rfl
  | cons cue cues ih =>
    cases cue with
    | strike location bpm length =>
      by_cases reached : cap.any (· ≤ clock.index) = true
      · rw [perform_strike_reached reached]; rfl
      · rw [perform_strike_free reached]
        simp only [Run.append, ih, Clock.after, List.singleton_append, List.length_cons]
        omega
    | bar location bpm => simpa only [perform_bar, Run.append, List.nil_append] using ih clock
    | report problem => simpa only [perform_report, Run.append, List.nil_append] using ih clock

/-- A performance leaves the marks of its cues in order, all of them unless it is cut short. -/
theorem perform_follows (cap : Option Nat) (cues : List Cue) (clock : Clock) :
    Follows (perform cap cues clock).cut ((perform cap cues clock).moments.map Moment.mark)
      (number clock.index cues) := by
  induction cues generalizing clock with
  | nil => exact .nil
  | cons cue cues ih =>
    cases cue with
    | strike location bpm length =>
      by_cases reached : cap.any (· ≤ clock.index) = true
      · rw [perform_strike_reached reached]
        exact .stopped
      · rw [perform_strike_free reached]
        exact (ih (clock.after bpm length)).cons _
    | bar location bpm =>
      rw [perform_bar]
      exact (ih clock).cons _
    | report problem =>
      rw [perform_report]
      exact ih clock

/-- Without a cap nothing is cut short. -/
theorem perform_uncut (cues : List Cue) (clock : Clock) : (perform none cues clock).cut = false := by
  induction cues generalizing clock with
  | nil => rfl
  | cons cue cues ih =>
    cases cue with
    | strike location bpm length => exact ih (clock.after bpm length)
    | bar location bpm => exact ih clock
    | report problem => exact ih clock

theorem perform_uncapped (cues : List Cue) (clock : Clock) :
    (perform none cues clock).moments.map Moment.mark = number clock.index cues :=
  (perform_follows none cues clock).2 (perform_uncut cues clock)

/-- The place and the tempo at which a cue plays a unit. -/
def strike? : Cue → Option (Location × Float)
  | strike location bpm _ => some (location, bpm)
  | bar .. | report _ => none

/-- Playable units are numbered one after the other. -/
theorem number_strikes (start : Nat) (cues : List Cue) :
    (number start cues).filterMap Mark.strike? =
      (List.range' start (cues.filterMap strike?).length).zip (cues.filterMap strike?) := by
  induction cues generalizing start with
  | nil => rfl
  | cons cue cues ih =>
    cases cue with
    | strike location bpm length =>
      have first : (strike location bpm length :: cues).filterMap strike? =
          (location, bpm) :: cues.filterMap strike? := rfl
      rw [first, List.length_cons, List.range'_succ, List.zip_cons_cons, ← ih]
      rfl
    | bar location bpm => exact ih start
    | report problem => exact ih start

end Cue

theorem Mark.filterMap_index (marks : List Mark) :
    marks.filterMap index = (marks.filterMap strike?).map Prod.fst := by
  rw [List.map_filterMap]
  congr 1
  funext m
  unfold strike?
  cases m.index <;> rfl

namespace Follows

variable {cut : Bool} {marks : List Mark} {start : Nat} {cues : List Cue}

/-- How many units are played and which indices they have: from the one at which the clock stands. -/
theorem indices (follows : Follows cut marks (Cue.number start cues)) :
    marks.filterMap Mark.index = List.range' start (marks.filterMap Mark.index).length := by
  obtain ⟨rest, split⟩ := follows.1.filterMap Mark.index
  have numbered : (Cue.number start cues).filterMap Mark.index =
      List.range' start (cues.filterMap Cue.strike?).length := by
    rw [Mark.filterMap_index, Cue.number_strikes, List.map_fst_zip (Nat.le_of_eq List.length_range')]
  rw [numbered] at split
  obtain ⟨played, _, same, _⟩ := List.range'_eq_append_iff.mp split.symm
  rw [same, List.length_range']

/-- The `j`-th index that was played is that of the `j`-th cue that plays a unit. -/
theorem struck (follows : Follows cut marks (Cue.number start cues)) {j n : Nat}
    (at' : (marks.filterMap Mark.index)[j]? = some n) :
    ∃ m ∈ marks, m.index = some n ∧ (cues.filterMap Cue.strike?)[j]? = some (m.location, m.bpm) := by
  rw [Mark.filterMap_index, List.getElem?_map] at at'
  obtain ⟨⟨n, place⟩, atStrike, rfl⟩ := Option.map_eq_some_iff.mp at'
  obtain ⟨m, member, struck⟩ := List.mem_filterMap.mp (List.mem_of_getElem? atStrike)
  obtain ⟨index, indexed, same⟩ := Option.map_eq_some_iff.mp struck
  cases same
  refine ⟨m, member, indexed, ?_⟩
  obtain ⟨rest, split⟩ := follows.1.filterMap Mark.strike?
  have inFull : (marks.filterMap Mark.strike? ++ rest)[j]? = some (n, m.location, m.bpm) := by
    rw [List.getElem?_append_left (List.getElem?_eq_some_iff.mp atStrike).1, atStrike]
  rw [split, Cue.number_strikes] at inFull
  exact (List.getElem?_zip_eq_some.mp inFull).2

/-- Unless playing is cut short, every cue that plays a unit gives an index. -/
theorem struck_length (follows : Follows cut marks (Cue.number start cues)) (whole : cut = false) :
    (marks.filterMap Mark.index).length = (cues.filterMap Cue.strike?).length := by
  rw [follows.2 whole, Mark.filterMap_index, Cue.number_strikes, List.length_map, List.length_zip,
    List.length_range', Nat.min_self]

end Follows

end Tablature
