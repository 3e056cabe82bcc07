import Tablature.Document.Encode
import Tablature.Playback.Timeline
import Tablature.Options

namespace Tablature

def Location.json (l : Location) : Json :=
  .object ([("sectionIndex", .nat l.sectionIndex), ("subsectionIndex", .nat l.subsectionIndex)] ++
    Json.optional "chordSequenceIndex" .nat l.sequenceIndex ++ [("chordIndex", .nat l.unit)])

def Moment.json (m : Moment) : Json :=
  .object ([("location", m.location.json), ("bpm", .float m.bpm), ("noteLengthMultiplier", .text m.length.label),
    ("elapsedSeconds", .float m.elapsed)] ++ Json.optional "playbackIndex" .nat m.index)

def SequencePass.json (p : SequencePass) : Json :=
  .object [("id", .text p.id), ("bpm", .float p.bpm), ("strummingPattern", p.pattern.json),
    ("data", Json.texts p.chords), ("indices", Json.nats p.indices)]

def SubsectionPass.json (p : SubsectionPass) : Json :=
  match p.content with
  | .tab columns indices =>
    .object [("type", .text "tab"), ("id", .text p.id), ("bpm", .float p.bpm),
      ("data", .list (columns.map Column.json)), ("indices", Json.nats indices)]
  | .chords sequences =>
    .object [("type", .text "chord"), ("id", .text p.id), ("bpm", .float p.bpm),
      ("data", .list (sequences.map SequencePass.json))]

def SectionPass.json (p : SectionPass) : Json :=
  .object [("id", .text p.id), ("title", .text p.title), ("data", .list (p.subsections.map SubsectionPass.json))]

def Diagnostic.json (d : Diagnostic) : Json :=
  .object ([("severity", .text d.severity.name), ("kind", .text d.kind.name), ("message", .text d.message)] ++
    Json.optional "location" Location.json d.location)

def Playback.json (p : Playback) : Json :=
  .object [("sections", .list (p.sections.map SectionPass.json)), ("metadata", .list (p.moments.map Moment.json)),
    ("diagnostics", .list (p.diagnostics.map Diagnostic.json))]

def Options.json (o : Options) : Json :=
  .object (("defaultBpm", .float o.defaultBpm) :: Json.optional "maxPlayableUnits" .nat o.cap)

end Tablature
