import Tablature.Yaml.Reader
import Tablature.Document.Decode
import Tablature.Options

namespace Tablature

open Yaml

/-- Sets a part of a record to what a reader makes of a node. -/
def Yaml.into (read : Spot → Reader α) (set : σ → α → σ) : Yaml.Setter σ :=
  fun spot record u => do
    let (a, u) ← read spot u
    return (set record a, u)

/-- A tempo as it is stored: absent if it is null or `unsetTempo`. -/
def Yaml.readTempo (spot : Spot) : Reader (Option Float) := fun u => do
  let (bpm, u) ← readOptional Yaml.readFloat spot u
  return (bpm.bind storedTempo, u)

namespace Subsection

def readYamlKind : Spot → Reader SubsectionKind :=
  readTextAs "variant identifier" SubsectionKind.ofTag

/-- The key of a field: the text `type`, or anything else. -/
def readYamlKey (spot : Spot) : Reader (Option Datum) := fun u => do
  let (key, u) ←
    readDatumAs "a type tag `type` or any other value" spot.document spot.depth spot.path u
  return (match key with
    | .text "type" => none
    | key => some key, u)

/-- A field of a subsection: its kind, which may come at any place but only once, or one that waits for
the kind to be known. -/
def readYamlField (spot : Spot) (state : Option SubsectionKind × List (Datum × Datum)) :
    Reader (Option SubsectionKind × List (Datum × Datum)) := fun u => do
  let inner : Spot := { spot with path := u.keyStep :: spot.path }
  match ← readYamlKey spot u with
  | (none, u) =>
    if state.1.isSome then throw (.mismatch (.duplicateField "type"))
    else
      let (kind, u) ← readYamlKind inner u
      return ((some kind, state.2), u)
  | (some key, u) =>
    let (value, u) ← readDatum inner u
    return ((state.1, (key, value) :: state.2), u)

/-- A subsection is a map with its kind under `type`, or a list that begins with it. Its fields are held
until the kind is known. -/
def readHeld (spot : Spot) : Reader (SubsectionKind × Datum) :=
  spot.atNode fun part mark u =>
    if part.isTagged then .error (.mismatch (.wrongType .tagged title))
    else
      match part, spot.depth with
      | .listStart _, 0 | .mapStart _, 0 => .error (.tooDeep mark)
      | .mapStart _, depth + 1 => do
        let ((kind, entries), u) ←
          readEntries spot (readYamlField { spot with depth }) u.parts (none, []) u
        match kind with
        | some kind => return ((kind, .map entries.reverse), u)
        | none => throw (.mismatch (.missingField "type"))
      | .listStart _, depth + 1 =>
        match u.parts with
        | (.listEnd, _) :: _ => .error (.mismatch (.missingField "type"))
        | _ => do
          let (kind, u) ← readYamlKind (spot.inside depth (.item 0)) u
          let item (index : Nat) := readDatum (spot.inside depth (.item (index + 1)))
          let (items, u) ← readItems spot item u.parts 0 [] u
          return ((kind, .list items), u)
      | part, _ => .error (refuse title part)

def readYaml (spot : Spot) : Reader Subsection := fun u => do
  let ((kind, held), u) ← readHeld spot u
  return (← (ofDatum kind held).mapError .mismatch, u)

end Subsection

def Section.yamlSchema : Schema (Yaml.Setter Section) :=
  { title := "struct Section"
    fields := [
      { name := "id", required := true, read := Yaml.into readText fun s id => { s with id } },
      { name := "title", read := Yaml.into readText fun s title => { s with title } },
      { name := "data"
        read := Yaml.into (readListOf Subsection.readYaml) fun s subsections => { s with subsections } }] }

def ProgressionEntry.yamlSchema : Schema (Yaml.Setter ProgressionEntry) :=
  { title := "struct ProgressionEntry"
    fields := [
      { name := "id", read := Yaml.into readText fun e id => { e with id } },
      { name := "sectionId", required := true, read := Yaml.into readText fun e sectionId => { e with sectionId } },
      { name := "title", read := Yaml.into readText fun e title => { e with title } },
      { name := "repetitions", read := Yaml.into readCount fun e repetitions => { e with repetitions } }] }

def Document.yamlSchema : Schema (Yaml.Setter Document) :=
  { title := "struct TabDocument"
    fields := [
      { name := "title", read := Yaml.into readText fun d title => { d with title } },
      { name := "bpm", read := Yaml.into readTempo fun d bpm => { d with bpm } },
      { name := "sections"
        read := Yaml.into (readListOf (readRecord Section.yamlSchema {})) fun d sections => { d with sections } },
      { name := "sectionProgression"
        read := Yaml.into (readListOf (readRecord ProgressionEntry.yamlSchema {})) fun d progression =>
          { d with progression } }] }

/-- A document from YAML text. -/
def Document.ofYaml (source : List Char) : Except Fault Document :=
  readWhole (readRecord Document.yamlSchema {}) source

def Options.yamlSchema : Schema (Yaml.Setter Options) :=
  { title := "struct CompileOptions"
    fields := [
      { name := "defaultBpm", read := Yaml.into Yaml.readFloat fun o defaultBpm => { o with defaultBpm } },
      { name := "maxPlayableUnits", read := Yaml.into (readOptional Yaml.readIndex) fun o cap => { o with cap } }] }

def Options.ofYaml (source : List Char) : Except Fault Options :=
  readWhole (readRecord Options.yamlSchema {}) source

end Tablature
