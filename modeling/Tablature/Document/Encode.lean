import Tablature.Document.Basic
import Tablature.Json.Printer

namespace Tablature

/-- The integer that a double is, if it is one below `2 ^ 63` in magnitude. -/
def wholeTempo (bpm : Float) : Option Int :=
  match Binary.ofFloat bpm with
  | .finite negative mantissa exponent =>
    let unit : Nat := Nat.pow 2 exponent.natAbs
    let whole? :=
      if 0 ≤ exponent then (if 64 ≤ exponent && mantissa != 0 then none else some (mantissa * unit))
      else if mantissa % unit == 0 then some (mantissa / unit) else none
    whole?.bind fun n => if n < 0x8000000000000000 then some (if negative then -n else n) else none
  | _ => none

/-- A stored tempo: whole ones without a fraction, and `unsetTempo` where none is set. -/
def tempoJson (bpm : Option Float) : Json :=
  let bpm := bpm.getD unsetTempo
  match wholeTempo bpm with
  | some n => .int n
  | none => .float bpm

def Column.json (c : Column) : Json :=
  Json.texts c.slots

def Strum.json (s : Strum) : Json :=
  .object [("palmMute", .text s.palmMute.slot), ("strum", .text s.text)]

def StrummingPattern.json (p : StrummingPattern) : Json :=
  .object [("id", .text p.id), ("noteLength", .text p.noteLength), ("strums", .list (p.strums.map Strum.json))]

def ChordSequence.json (q : ChordSequence) : Json :=
  .object [("id", .text q.id), ("repetitions", .nat q.repetitions.toNat), ("bpm", tempoJson q.bpm),
    ("strummingPattern", q.pattern.json), ("data", Json.texts q.chords)]

/-- The word that tells the kinds of subsections apart. -/
def Content.tag : Content → String
  | tab _ => "tab"
  | chords _ => "chord"

def Content.json : Content → Json
  | tab columns => .list (columns.map Column.json)
  | chords sequences => .list (sequences.map ChordSequence.json)

def Subsection.json (b : Subsection) : Json :=
  .object [("type", .text b.content.tag), ("id", .text b.id), ("bpm", tempoJson b.bpm),
    ("repetitions", .nat b.repetitions.toNat), ("data", b.content.json)]

def Section.json (s : Section) : Json :=
  .object [("id", .text s.id), ("title", .text s.title), ("data", .list (s.subsections.map Subsection.json))]

def ProgressionEntry.json (e : ProgressionEntry) : Json :=
  .object [("id", .text e.id), ("sectionId", .text e.sectionId), ("title", .text e.title),
    ("repetitions", .nat e.repetitions.toNat)]

/-- A document as it is stored. -/
def Document.json (d : Document) : Json :=
  .object [("title", .text d.title), ("bpm", tempoJson d.bpm), ("sections", .list (d.sections.map Section.json)),
    ("sectionProgression", .list (d.progression.map ProgressionEntry.json))]

end Tablature
