import Tablature.Playback.Location
import Tablature.Document.Basic

namespace Tablature

inductive Severity where
  | info
  | warning
deriving DecidableEq, Repr

def Severity.name : Severity → String
  | info => "info"
  | warning => "warning"

inductive DiagnosticKind where
  | unknownNoteLength
  | unresolvedSection
  | unresolvedLocation
  | truncated
  | unknownStrum
  | chordCountMismatch
  | invalidBpm
deriving DecidableEq, Repr

def DiagnosticKind.name : DiagnosticKind → String
  | unknownNoteLength => "unknown-note-length"
  | unresolvedSection => "unresolved-section"
  | unresolvedLocation => "unresolved-location"
  | truncated => "truncated"
  | unknownStrum => "unknown-strum"
  | chordCountMismatch => "chord-count-mismatch"
  | invalidBpm => "invalid-bpm"

/-- Where a tempo can be written. -/
inductive TempoOwner where
  | document
  | subsection
  | sequence
  | measureLine
deriving DecidableEq, Repr

def TempoOwner.phrase : TempoOwner → String
  | document => "The tab"
  | subsection => "This subsection"
  | sequence => "This chord sequence"
  | measureLine => "This measure line"

/-- What is wrong, apart from where. -/
inductive Problem where
  | unknownLength (tag : String)
  | timelessLength (tag : String)
  | timelessPattern
  | missingSection (id : String)
  | nothingAt (address : Address)
  | truncated (units : Nat)
  | unknownStrum (text : String)
  | chordCount (chords strums : Nat)
  | unusableTempo (owner : TempoOwner) (bpm : Float)
  | unreadableTempo (slot : String)
deriving DecidableEq

namespace Problem

def kind : Problem → DiagnosticKind
  | unknownLength _ | timelessLength _ | timelessPattern => .unknownNoteLength
  | missingSection _ => .unresolvedSection
  | nothingAt _ => .unresolvedLocation
  | truncated _ => .truncated
  | unknownStrum _ => .unknownStrum
  | chordCount .. => .chordCountMismatch
  | unusableTempo .. | unreadableTempo _ => .invalidBpm

def severity : Problem → Severity
  | chordCount .. => .info
  | _ => .warning

def indexPhrase : Option Nat → String
  | some i => "Some(" ++ toString i ++ ")"
  | none => "None"

def message : Problem → String
  | unknownLength tag => "Unknown note length " ++ quoted tag ++ ", playing it as a quarter note"
  | timelessLength tag => quoted tag ++ " cannot time a playable unit, playing it as a quarter note"
  | timelessPattern => "A strumming pattern cannot use measureLine as its note length"
  | missingSection id => "Section progression references missing section " ++ quoted id
  | nothingAt a =>
    "Nothing to preview at section " ++ toString a.sectionIndex ++ ", subsection " ++
      indexPhrase a.subsectionIndex ++ ", chord sequence " ++ indexPhrase a.sequenceIndex
  | truncated units => "Stopped expanding after " ++ toString units ++ " playable units"
  | unknownStrum text => "Unknown strum " ++ quoted text
  | chordCount chords strums => toString chords ++ " chord names for " ++ toString strums ++ " strums"
  | unusableTempo owner bpm =>
    owner.phrase ++ " sets a tempo of " ++ FloatStyle.plain.text bpm ++ " BPM, which is ignored"
  | unreadableTempo slot => "Measure line tempo " ++ quoted slot ++ " is not a number"

end Problem

structure Diagnostic where
  problem : Problem
  location : Option Location := none
deriving DecidableEq

namespace Diagnostic

def kind (d : Diagnostic) : DiagnosticKind := d.problem.kind

def severity (d : Diagnostic) : Severity := d.problem.severity

def message (d : Diagnostic) : String := d.problem.message

end Diagnostic

end Tablature
