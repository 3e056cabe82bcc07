import Tablature.Diagnostic

namespace Tablature

def lintTempo (owner : TempoOwner) (location : Option Location) (bpm : Option Float) : List Diagnostic :=
  match bpm with
  | some bpm => if isUsableTempo bpm then [] else [⟨.unusableTempo owner bpm, location⟩]
  | none => []

/-- The tempo slot of a measure line is empty, the unset tempo, or a usable one. -/
def Column.lintMeasureLine (c : Column) (location : Location) : List Diagnostic :=
  if (trim c.effects.toList).isEmpty then []
  else
    match c.slotTempo with
    | some bpm => lintTempo .measureLine location (storedTempo bpm)
    | none => [⟨.unreadableTempo (trimmed c.effects), location⟩]

def Column.lint (c : Column) (location : Location) : List Diagnostic :=
  if c.isMeasureLine then c.lintMeasureLine location
  else
    match NoteLength.ofTag? c.noteLength with
    | some _ => []
    | none => [⟨.unknownLength c.noteLength, location⟩]

def StrummingPattern.lintLength (p : StrummingPattern) (location : Location) : List Diagnostic :=
  match NoteLength.ofTag? p.noteLength with
  | some length => if length.isPlayable then [] else [⟨.timelessPattern, location⟩]
  | none => [⟨.unknownLength p.noteLength, location⟩]

/-- `start` is the location of the sequence's first strum. -/
def ChordSequence.lint (q : ChordSequence) (start : Location) : List Diagnostic :=
  lintTempo .sequence start q.bpm ++ q.pattern.lintLength start ++
    (q.pattern.strums.mapIdx fun k strum =>
      match strum.tag? with
      | some _ => []
      | none => [(⟨.unknownStrum strum.text, some { start with unit := k }⟩ : Diagnostic)]).flatten ++
    if q.chords.length = q.pattern.strums.length then []
    else [⟨.chordCount q.chords.length q.pattern.strums.length, start⟩]

def Subsection.lint (b : Subsection) (s t : Nat) : List Diagnostic :=
  lintTempo .subsection (Location.column s t 0) b.bpm ++
    match b.content with
    | .tab columns => (columns.mapIdx fun i c => c.lint (.column s t i)).flatten
    | .chords sequences => (sequences.mapIdx fun q sequence => sequence.lint (.strum s t q 0)).flatten

def Document.lintProgression (d : Document) : List Diagnostic :=
  d.progression.flatMap fun entry =>
    match d.section? entry.sectionId with
    | some _ => []
    | none => [⟨.missingSection entry.sectionId, none⟩]

/-- Everything suspicious in a document: its tempo, its progression, then its units in order. -/
def Document.lint (d : Document) : List Diagnostic :=
  lintTempo .document none d.bpm ++ d.lintProgression ++
    (d.sections.mapIdx fun s unit => (unit.subsections.mapIdx fun t b => b.lint s t).flatten).flatten

end Tablature
