import Tablature.Document.Load
import Tablature.Lint
import Tablature.Playback.Play
import Tablature.Playback.Timeline

namespace Tablature

/-- One thing an editing session is asked to do. Indices address units that are already there. -/
inductive Edit where
  | load (source : String)
  | reload
  | addSection (id title : String)
  | addTab (s : Nat) (id : String)
  | addChords (s : Nat) (id : String)
  | addColumn (s t : Nat) (column : Column)
  | addSequence (s t : Nat) (sequence : ChordSequence)
  | documentTempo (bpm : Float)
  | subsectionTempo (s t : Nat) (bpm : Float)
  | subsectionRepetitions (s t : Nat) (repetitions : UInt32)
  | addProgression (entry : ProgressionEntry)
  | clearProgression

/-- Why a session does not do it. -/
inductive EditError where
  | load (error : LoadError)
  | noSuchUnit

namespace Section

def empty (id title : String) : Section :=
  { id, title }

def add (b : Subsection) (s : Section) : Section :=
  { s with subsections := s.subsections ++ [b] }

end Section

namespace Subsection

def empty (id : String) (content : Content) : Subsection :=
  { id, repetitions := 1, content }

def addColumn (c : Column) (b : Subsection) : Option Subsection :=
  match b.content with
  | .tab columns => some { b with content := .tab (columns ++ [c]) }
  | .chords _ => none

def addSequence (q : ChordSequence) (b : Subsection) : Option Subsection :=
  match b.content with
  | .chords sequences => some { b with content := .chords (sequences ++ [q]) }
  | .tab _ => none

end Subsection

namespace Document

def editSection (d : Document) (s : Nat) (edit : Section → Option Section) : Except EditError Document :=
  match (d.sections[s]?).bind edit with
  | some changed => .ok { d with sections := d.sections.set s changed }
  | none => .error .noSuchUnit

def editSubsection (d : Document) (s t : Nat) (edit : Subsection → Option Subsection) :
    Except EditError Document :=
  d.editSection s fun unit =>
    ((unit.subsections[t]?).bind edit).map fun changed =>
      { unit with subsections := unit.subsections.set t changed }

def edit (d : Document) : Edit → Except EditError Document
  | .load source => (Document.load source).mapError .load
  | .reload => (Document.load d.toJson).mapError .load
  | .addSection id title => .ok { d with sections := d.sections ++ [Section.empty id title] }
  | .addTab s id => d.editSection s fun unit => some (unit.add (.empty id (.tab [])))
  | .addChords s id => d.editSection s fun unit => some (unit.add (.empty id (.chords [])))
  | .addColumn s t c => d.editSubsection s t (Subsection.addColumn c)
  | .addSequence s t q => d.editSubsection s t (Subsection.addSequence q)
  | .documentTempo bpm => .ok { d with bpm := some bpm }
  | .subsectionTempo s t bpm => d.editSubsection s t fun b => some { b with bpm := some bpm }
  | .subsectionRepetitions s t n => d.editSubsection s t fun b => some { b with repetitions := n }
  | .addProgression entry => .ok { d with progression := d.progression ++ [entry] }
  | .clearProgression => .ok { d with progression := [] }

end Document

/-- What an editing session knows: its document, the options, and what was played last. -/
structure Session where
  document : Document := {}
  options : Options := {}
  last : Playback := .empty

namespace Session

/-- An edit that fails leaves the session as it was. -/
def edit (session : Session) (e : Edit) : Session × Except EditError Document :=
  match session.document.edit e with
  | .ok document => ({ session with document }, .ok document)
  | .error error => (session, .error error)

/-- Plays the whole document and remembers it. -/
def play (session : Session) : Session :=
  { session with last := session.document.play session.document.effectiveProgression session.options }

def preview (session : Session) (address : Address) : Session :=
  { session with last := session.document.preview address session.options }

end Session

end Tablature
