import Tablature.Document.Column
import Tablature.Document.Strum

namespace Tablature

/-- Strums of one note length. -/
structure StrummingPattern where
  id : String := ""
  noteLength : String := ""
  strums : List Strum := []
deriving DecidableEq

/-- A strumming pattern with one chord name per strum; an empty name keeps the chord before it. -/
structure ChordSequence where
  id : String := ""
  repetitions : UInt32 := 0
  bpm : Option Float := none
  pattern : StrummingPattern := {}
  chords : List String := []
deriving BEq

/-- What a subsection consists of: columns of notes, or strummed chords. -/
inductive Content where
  | tab (columns : List Column)
  | chords (sequences : List ChordSequence)
deriving BEq

structure Subsection where
  id : String := ""
  bpm : Option Float := none
  repetitions : UInt32 := 0
  content : Content
deriving BEq

structure Section where
  id : String := ""
  title : String := ""
  subsections : List Subsection := []
deriving BEq

/-- One entry of the playlist of sections. -/
structure ProgressionEntry where
  id : String := ""
  sectionId : String := ""
  title : String := ""
  repetitions : UInt32 := 0
deriving DecidableEq

/-- A tab document. Tempos compare as numbers: two documents with a tempo that is not a number are
never the same by `==`. -/
structure Document where
  title : String := ""
  bpm : Option Float := none
  sections : List Section := []
  progression : List ProgressionEntry := []
deriving BEq

/-- How often a unit plays: once where nothing or zero is stored. -/
def passes (repetitions : UInt32) : Nat :=
  max 1 repetitions.toNat

def ProgressionEntry.playing (sectionId : String) (repetitions : UInt32) : ProgressionEntry :=
  { id := sectionId ++ "-entry", sectionId, repetitions }

namespace Document

/-- The first section that carries the id, with its position. -/
def section? (d : Document) (id : String) : Option (Nat × Section) :=
  (d.sections.zipIdx.find? fun (s, _) => s.id == id).map fun (s, i) => (i, s)

/-- The stored progression; without one, every section once in order. -/
def effectiveProgression (d : Document) : List ProgressionEntry :=
  if d.progression.isEmpty then
    d.sections.map fun s => { ProgressionEntry.playing s.id 1 with title := s.title }
  else d.progression

end Document

end Tablature
