import Tablature.Json.Reader
import Tablature.Document.Decode

namespace Tablature

open Json

/-- Sets a part of a record to what a reader makes of the text. -/
def Json.into (read : List Char → Except Fault (α × List Char)) (set : σ → α → σ) : Json.Setter σ :=
  fun _ record cs => do
    let (a, rest) ← read cs
    return (set record a, rest)

def Json.nestedInto (read : Nat → List Char → Except Fault (α × List Char)) (set : σ → α → σ) : Json.Setter σ :=
  fun depth record cs => do
    let (a, rest) ← read depth cs
    return (set record a, rest)

namespace Subsection

def readJsonKind (cs : List Char) : Except Fault (SubsectionKind × List Char) :=
  match skipSpace cs with
  | [] => .error (.here .endOfValue [])
  | '"' :: rest => do
    let (tag, rest) ← readString rest
    match SubsectionKind.ofTag tag with
    | .ok kind => return (kind, rest)
    | .error mismatch => .error (.here (.mismatch mismatch) rest)
  | rest => .error (refuse "variant identifier" rest)

/-- A field of a subsection: its kind, which may come at any place but only once, or one that waits for
the kind to be known. -/
def readJsonField (depth : Nat) (state : Option SubsectionKind × List (Datum × Datum)) (key : String)
    (cs : List Char) : Except Fault ((Option SubsectionKind × List (Datum × Datum)) × List Char) :=
  if key = "type" then
    if state.1.isSome then .error (.adrift (.duplicateField "type") cs)
    else do
      let (kind, rest) ← readJsonKind (← readColon cs)
      return ((some kind, state.2), rest)
  else do
    let (value, rest) ← readDatum depth (← readColon cs)
    return ((state.1, (.text key, value) :: state.2), rest)

def ofHeld (kind : SubsectionKind) (datum : Datum) (rest : List Char) :
    Except Fault (Subsection × List Char) :=
  match ofDatum kind datum with
  | .ok b => .ok (b, rest)
  | .error mismatch => .error (.adrift mismatch rest)

/-- A subsection: an object with its kind under `type`, or a list that begins with it. -/
def readJson (depth : Nat) (cs : List Char) : Except Fault (Subsection × List Char) :=
  match skipSpace cs with
  | [] => .error (.here .endOfValue [])
  | '\x7b' :: rest =>
    match depth with
    | 0 => .error (.next .tooDeep ('\x7b' :: rest))
    | depth + 1 => do
      let ((kind, entries), rest) ← readFields (readJsonField depth) (rest.length + 1) true (none, []) rest
      match kind with
      | some kind => ofHeld kind (.map entries.reverse) rest
      | none => .error (.here (.mismatch (.missingField "type")) rest)
  | '[' :: rest =>
    match depth with
    | 0 => .error (.next .tooDeep ('[' :: rest))
    | depth + 1 => do
      match ← nextItem true rest with
      | (none, rest) => .error (.here (.mismatch (.missingField "type")) rest)
      | (some cs, _) =>
        let (kind, rest) ← readJsonKind cs
        let (items, rest) ← readItems (readDatum depth) (rest.length + 1) false [] rest
        ofHeld kind (.list items) rest
  | rest => do
    let (datum, rest) ← readScalar rest
    .error (.here (.mismatch (.wrongType datum.found title)) rest)

end Subsection

def Section.jsonSchema : Schema (Json.Setter Section) :=
  { title := "struct Section"
    fields := [
      { name := "id", required := true, read := Json.into readText fun s id => { s with id } },
      { name := "title", read := Json.into readText fun s title => { s with title } },
      { name := "data"
        read := Json.nestedInto (readListOf Subsection.readJson) fun s subsections => { s with subsections } }] }

def ProgressionEntry.jsonSchema : Schema (Json.Setter ProgressionEntry) :=
  { title := "struct ProgressionEntry"
    fields := [
      { name := "id", read := Json.into readText fun e id => { e with id } },
      { name := "sectionId", required := true, read := Json.into readText fun e sectionId => { e with sectionId } },
      { name := "title", read := Json.into readText fun e title => { e with title } },
      { name := "repetitions", read := Json.into readCount fun e repetitions => { e with repetitions } }] }

def Document.jsonSchema : Schema (Json.Setter Document) :=
  { title := "struct TabDocument"
    fields := [
      { name := "title", read := Json.into readText fun d title => { d with title } },
      { name := "bpm", read := Json.into readTempo fun d bpm => { d with bpm } },
      { name := "sections"
        read := Json.nestedInto (readListOf (readRecord Section.jsonSchema {})) fun d sections =>
          { d with sections } },
      { name := "sectionProgression"
        read := Json.nestedInto (readListOf (readRecord ProgressionEntry.jsonSchema {})) fun d progression =>
          { d with progression } }] }

/-- A document from JSON text. -/
def Document.ofJson (source : List Char) : Except Fault Document :=
  readWhole (readRecord Document.jsonSchema {} nesting) source

end Tablature
