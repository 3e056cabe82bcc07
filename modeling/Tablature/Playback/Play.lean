import Tablature.Playback.Expansion
import Tablature.Decimal.Binary

namespace Tablature

/-- Shifts a timeline so that it begins at zero. -/
def rebase (moments : List Moment) : List Moment :=
  match moments.head? with
  | some first => moments.map fun m => { m with elapsed := m.elapsed - first.elapsed }
  | none => []

/-- The end of a timeline: the place after its last moment, a whole number of seconds and one later. -/
def endAfter (last : Moment) : Moment :=
  { last with
    location := last.location.next
    elapsed := last.elapsed + roundUp (60.0 / last.bpm) + 1.0
    index := none }

/-- A timeline with its end, if it has anything. -/
def closeTimeline (moments : List Moment) : List Moment :=
  moments ++ (moments.getLast?.map endAfter).toList

/-- Each problem of a run once, in the order of first sight, and last that it was cut short. -/
def Run.diagnostics (run : Run α) (options : Options) : List Diagnostic :=
  let ending := if run.cut then [⟨.truncated (options.cap.getD 0), none⟩] else []
  (run.problems ++ ending).eraseDups

namespace Document

/-- Plays the sections that a progression names, one after the other on one timeline. -/
def play (d : Document) (progression : List ProgressionEntry) (options : Options) : Playback :=
  let run := Part.inOrder (progression.map fun entry => entry.part d options) Clock.start
  ⟨run.units, closeTimeline (rebase run.moments), run.diagnostics options⟩

/-- Plays one part of a section; nothing is added to its timeline. -/
def previewPart (unit : Section) (part : Part SubsectionPass) (options : Options) : Playback :=
  let run := part Clock.start
  ⟨[⟨unit.id, unit.title, run.units⟩], run.moments, run.diagnostics options⟩

/-- The part of a section that an address names within it. A sequence plays inside one pass of its
subsection, which is kept even if it stays empty. -/
def partAt? (unit : Section) (address : Address) (options : Options) (global : Float) :
    Option (Part SubsectionPass) :=
  match address.subsectionIndex, address.sequenceIndex with
  | none, none => some (unit.body options.cap global address.sectionIndex)
  | some t, none => (unit.subsections[t]?).map fun b => b.part options.cap global address.sectionIndex t
  | some t, some i => do
    let b ← unit.subsections[t]?
    match b.content with
    | .tab _ => none
    | .chords sequences =>
      let q ← sequences[i]?
      let bpm := resolveTempo b.bpm global
      some fun clock =>
        let run := q.part options.cap bpm address.sectionIndex t i clock
        ⟨[⟨b.id, bpm, .chords run.units⟩], run.moments, run.problems, run.cut, run.clock⟩
  | none, some _ => none

/-- Plays one section, subsection or chord sequence alone, from time zero. -/
def preview (d : Document) (address : Address) (options : Options) : Playback :=
  let played := do
    let unit ← d.sections[address.sectionIndex]?
    let part ← partAt? unit address options (d.globalTempo options)
    some (previewPart unit part options)
  played.getD ⟨[], [], [⟨.nothingAt address, none⟩]⟩

end Document

end Tablature
