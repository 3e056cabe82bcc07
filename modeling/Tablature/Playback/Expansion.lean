import Tablature.Playback.Part
import Tablature.Options

namespace Tablature

/-- The length with which a playable unit is timed, and what is wrong with its tag: an unknown length
and one that takes no time are played as quarters. -/
def playableLength (tag : String) : NoteLength × Option Problem :=
  match NoteLength.ofTag? tag with
  | some length => if length.isPlayable then (length, none) else (.quarter, some (.timelessLength tag))
  | none => (.quarter, some (.unknownLength tag))

def problemAt (location : Location) (problem : Option Problem) : List Diagnostic :=
  problem.toList.map fun p => ⟨p, some location⟩

def Column.part (cap : Option Nat) (location : Location) (bpm : Float) (c : Column) : Part Nat :=
  if c.isMeasureLine then Part.bar location bpm
  else
    let (length, problem) := playableLength c.noteLength
    (Part.strike cap location bpm length).andThen (Part.report (problemAt location problem))

/-- Every pass of a chord sequence. Its note length is looked at once, before the first pass. -/
def ChordSequence.part (cap : Option Nat) (enclosing : Float) (s t i : Nat) (q : ChordSequence) :
    Part SequencePass :=
  let bpm := resolveTempo q.bpm enclosing
  let (length, problem) := playableLength q.pattern.noteLength
  let strums := q.pattern.strums.mapIdx fun k _ => Part.strike cap (.strum s t i k) bpm length
  let pass := (Part.inOrder strums).gather fun indices => ⟨q.id, bpm, q.pattern, q.chords, indices⟩
  (Part.report (problemAt (.strum s t i 0) problem)).andThen (pass.times (passes q.repetitions))

def tabPass (cap : Option Nat) (bpm : Float) (s t : Nat) (id : String) (columns : List Column) :
    Part SubsectionPass :=
  let timed := columns.zip (Column.tempos (.start bpm) columns)
  let parts := timed.mapIdx fun i (c, tempo) => c.part cap (.column s t i) tempo
  (Part.inOrder parts).gather fun indices => ⟨id, bpm, .tab columns indices⟩

def chordPass (cap : Option Nat) (bpm : Float) (s t : Nat) (id : String) (sequences : List ChordSequence) :
    Part SubsectionPass :=
  let parts := sequences.mapIdx fun i q => q.part cap bpm s t i
  (Part.inOrder parts).gather fun sequences => ⟨id, bpm, .chords sequences⟩

/-- One pass of a subsection. -/
def Subsection.pass (cap : Option Nat) (enclosing : Float) (s t : Nat) (b : Subsection) :
    Part SubsectionPass :=
  let bpm := resolveTempo b.bpm enclosing
  match b.content with
  | .tab columns => tabPass cap bpm s t b.id columns
  | .chords sequences => chordPass cap bpm s t b.id sequences

/-- Every pass of a subsection. -/
def Subsection.part (cap : Option Nat) (enclosing : Float) (s t : Nat) (b : Subsection) :
    Part SubsectionPass :=
  (b.pass cap enclosing s t).times (passes b.repetitions)

/-- The subsections of a section, each with its passes. -/
def Section.body (cap : Option Nat) (global : Float) (s : Nat) (unit : Section) : Part SubsectionPass :=
  Part.inOrder (unit.subsections.mapIdx fun t b => b.part cap global s t)

def Section.pass (cap : Option Nat) (global : Float) (s : Nat) (unit : Section) : Part SectionPass :=
  (unit.body cap global s).gather fun subsections => ⟨unit.id, unit.title, subsections⟩

/-- The tempo of a document: its own, or else the default of the options, or else 120. -/
def Document.globalTempo (d : Document) (options : Options) : Float :=
  resolveTempo d.bpm (resolveTempo (some options.defaultBpm) 120.0)

/-- An entry of a progression: its section as often as it repeats, or a problem. -/
def ProgressionEntry.part (d : Document) (options : Options) (entry : ProgressionEntry) : Part SectionPass :=
  match d.section? entry.sectionId with
  | some (s, unit) => (unit.pass options.cap (d.globalTempo options) s).times (passes entry.repetitions)
  | none => Part.report [⟨.missingSection entry.sectionId, none⟩]

end Tablature
