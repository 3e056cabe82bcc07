import Tablature.Playback.Basic

namespace Tablature

/-- Where playing stands: the seconds gone by and the index of the next playable unit. -/
structure Clock where
  seconds : Float
  index : Nat
deriving DecidableEq

def Clock.start : Clock :=
  ⟨0.0, 0⟩

def Clock.after (clock : Clock) (bpm : Float) (length : NoteLength) : Clock :=
  ⟨clock.seconds + length.secondsAt bpm, clock.index + 1⟩

/-- What playing some part gave: the units it produced, their moments, the problems met, whether the
cap cut it short, and the clock after it. -/
structure Run (α : Type) where
  units : List α
  moments : List Moment
  problems : List Diagnostic
  cut : Bool
  clock : Clock

def Run.append (first second : Run α) : Run α :=
  ⟨first.units ++ second.units, first.moments ++ second.moments, first.problems ++ second.problems,
    second.cut, second.clock⟩

/-- Something that can be played from any point in time. -/
abbrev Part (α : Type) :=
  Clock → Run α

namespace Part

def rest : Part α := fun clock =>
  ⟨[], [], [], false, clock⟩

def report (problems : List Diagnostic) : Part α := fun clock =>
  ⟨[], [], problems, false, clock⟩

/-- Plays `second` after `first`, unless `first` is cut short. -/
def andThen (first second : Part α) : Part α := fun clock =>
  let run := first clock
  if run.cut then run else run.append (second run.clock)

def inOrder : List (Part α) → Part α
  | [], clock => rest clock
  | part :: parts, clock => part.andThen (inOrder parts) clock

def times (part : Part α) : Nat → Part α
  | 0, clock => rest clock
  | n + 1, clock => part.andThen (times part n) clock

/-- One unit made of the units of a part. A unit that is cut short before its first moment is left
out. -/
def gather (unit : List α → β) (part : Part α) : Part β := fun clock =>
  let run := part clock
  let units := if run.cut && run.moments.isEmpty then [] else [unit run.units]
  ⟨units, run.moments, run.problems, run.cut, run.clock⟩

/-- A playable unit; playing is cut short in front of it when the cap is reached. -/
def strike (cap : Option Nat) (location : Location) (bpm : Float) (length : NoteLength) : Part Nat :=
  fun clock =>
    if cap.any (· ≤ clock.index) then ⟨[], [], [], true, clock⟩
    else
      ⟨[clock.index], [⟨location, bpm, length, clock.seconds, some clock.index⟩], [], false,
        clock.after bpm length⟩

/-- A measure line: a moment that takes no time and has no index. -/
def bar (location : Location) (bpm : Float) : Part Nat := fun clock =>
  ⟨[], [⟨location, bpm, .measureLine, clock.seconds, none⟩], [], false, clock⟩

end Part

end Tablature
