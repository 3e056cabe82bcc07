import Tablature.Diagnostic

namespace Tablature

/-- One instant of a timeline: what sounds there, at which tempo and for how long, and when. Measure
lines and the end of a timeline have no index among the playable units. -/
structure Moment where
  location : Location
  bpm : Float
  length : NoteLength
  elapsed : Float
  index : Option Nat
deriving DecidableEq

def Moment.isPlayable (m : Moment) : Bool :=
  m.index.isSome

/-- One pass of a chord sequence, with the index of each strum that was played. -/
structure SequencePass where
  id : String
  bpm : Float
  pattern : StrummingPattern
  chords : List String
  indices : List Nat
deriving DecidableEq

/-- A tab pass keeps all its columns; its indices are those of the columns that were played. -/
inductive PassContent where
  | tab (columns : List Column) (indices : List Nat)
  | chords (sequences : List SequencePass)
deriving DecidableEq

structure SubsectionPass where
  id : String
  bpm : Float
  content : PassContent
deriving DecidableEq

structure SectionPass where
  id : String
  title : String
  subsections : List SubsectionPass
deriving DecidableEq

/-- What playing a document gives: its units pass by pass, the timeline, and each problem once. -/
structure Playback where
  sections : List SectionPass
  moments : List Moment
  diagnostics : List Diagnostic
deriving DecidableEq

def Playback.empty : Playback :=
  ⟨[], [], []⟩

end Tablature
