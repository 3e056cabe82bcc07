import Tablature.Datum.Schema
import Tablature.Document.Basic
import Tablature.Document.Encode

namespace Tablature

/-- Sets a part of a record to what a reader makes of a datum. -/
def Datum.into (read : Datum → Except Mismatch α) (set : σ → α → σ) : Datum.Setter σ :=
  fun record datum => set record <$> read datum

namespace Column

def ofDatum (datum : Datum) : Except Mismatch Column := do
  let slots ← datum.listOf Datum.string
  (ofSlots slots).mapError .column

end Column

namespace PalmMute

def slots : List String :=
  all.map slot

def ofKey : Datum → Except Mismatch PalmMute
  | .text name =>
    match ofSlot? name with
    | some mute => .ok mute
    | none => .error (.unknownVariant name slots)
  | .nat n =>
    match all[n]? with
    | some mute => .ok mute
    | none => .error (.wrongValue (.int n) "variant index 0 <= i < 4")
  | key => .error (.wrongType key.found "variant identifier")

/-- A palm mute is its slot text, or a map from it to nothing. -/
def ofDatum : Datum → Except Mismatch PalmMute
  | .text name => ofKey (.text name)
  | .map [(key, value)] => do
    let mute ← ofKey key
    match value with
    | .null | .map [] => .ok mute
    | _ => .error (.wrongType value.found "unit")
  | .map _ => .error (.wrongValue .map "map with a single key")
  | datum => .error (.wrongType datum.found "string or map")

end PalmMute

def Strum.schema : Schema (Datum.Setter Strum) :=
  { title := "struct Strum"
    fields := [
      { name := "palmMute", read := Datum.into PalmMute.ofDatum fun s mute => { s with palmMute := mute } },
      { name := "strum", read := Datum.into Datum.string fun s text => { s with text } }] }

def Strum.ofDatum : Datum → Except Mismatch Strum :=
  Datum.record Strum.schema .counted {}

def StrummingPattern.schema : Schema (Datum.Setter StrummingPattern) :=
  { title := "struct StrummingPattern"
    fields := [
      { name := "id", read := Datum.into Datum.string fun p id => { p with id } },
      { name := "noteLength", required := true
        read := Datum.into Datum.string fun p noteLength => { p with noteLength } },
      { name := "strums", read := Datum.into (Datum.listOf Strum.ofDatum) fun p strums => { p with strums } }] }

def StrummingPattern.ofDatum : Datum → Except Mismatch StrummingPattern :=
  Datum.record StrummingPattern.schema .counted {}

def ChordSequence.schema : Schema (Datum.Setter ChordSequence) :=
  { title := "struct ChordSequence"
    fields := [
      { name := "id", read := Datum.into Datum.string fun q id => { q with id } },
      { name := "repetitions", read := Datum.into Datum.count fun q repetitions => { q with repetitions } },
      { name := "bpm", read := Datum.into Datum.tempo fun q bpm => { q with bpm } },
      { name := "strummingPattern", required := true
        read := Datum.into StrummingPattern.ofDatum fun q pattern => { q with pattern } },
      { name := "data", read := Datum.into (Datum.listOf Datum.string) fun q chords => { q with chords } }] }

def ChordSequence.ofDatum : Datum → Except Mismatch ChordSequence :=
  Datum.record ChordSequence.schema .counted {}

/-- The two kinds of subsections, by the word that tells them apart. -/
inductive SubsectionKind where
  | tab
  | chord
deriving DecidableEq, Repr

namespace SubsectionKind

def tag : SubsectionKind → String
  | tab => "tab"
  | chord => "chord"

def ofTag (tag : String) : Except Mismatch SubsectionKind :=
  if tag = "tab" then .ok .tab
  else if tag = "chord" then .ok .chord
  else .error (.unknownVariant tag ["tab", "chord"])

def title : SubsectionKind → String
  | tab => "struct TabSubsection"
  | chord => "struct ChordSubsection"

def noContent : SubsectionKind → Content
  | tab => .tab []
  | chord => .chords []

def content (kind : SubsectionKind) (datum : Datum) : Except Mismatch Content :=
  match kind with
  | tab => .tab <$> datum.listOf Column.ofDatum
  | chord => .chords <$> datum.listOf ChordSequence.ofDatum

end SubsectionKind

/-- Messages call a subsection so as long as its kind is unknown. -/
def Subsection.title : String :=
  "internally tagged enum Subsection"

def Subsection.schema (kind : SubsectionKind) : Schema (Datum.Setter Subsection) :=
  { title := kind.title
    fields := [
      { name := "id", read := Datum.into Datum.string fun b id => { b with id } },
      { name := "bpm", read := Datum.into Datum.tempo fun b bpm => { b with bpm } },
      { name := "repetitions", read := Datum.into Datum.count fun b repetitions => { b with repetitions } },
      { name := "data", read := Datum.into kind.content fun b content => { b with content } }] }

/-- The rest of a subsection once its kind is known. -/
def Subsection.ofDatum (kind : SubsectionKind) : Datum → Except Mismatch Subsection :=
  Datum.record (Subsection.schema kind) .counted { content := kind.noContent }

def ProgressionEntry.schema : Schema (Datum.Setter ProgressionEntry) :=
  { title := "struct ProgressionEntry"
    fields := [
      { name := "id", read := Datum.into Datum.string fun e id => { e with id } },
      { name := "sectionId", required := true
        read := Datum.into Datum.string fun e sectionId => { e with sectionId } },
      { name := "title", read := Datum.into Datum.string fun e title => { e with title } },
      { name := "repetitions", read := Datum.into Datum.count fun e repetitions => { e with repetitions } }] }

/-- A progression given as a value of its own. -/
def progressionOfDatum : Datum → Except Mismatch (List ProgressionEntry) :=
  Datum.listOf fun entry => entry.sortEntries.record ProgressionEntry.schema .uncounted {}

end Tablature
