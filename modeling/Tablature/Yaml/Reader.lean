import Tablature.Yaml.Loaded
import Tablature.Yaml.Meaning
import Tablature.Datum.Schema

namespace Tablature.Yaml

/-- What of a document is still unread, and how many references were followed before. -/
structure Unread where
  parts : List (Placed Part)
  followed : Nat := 0

/-- Reads a value and gives it with the parts after it. -/
abbrev Reader (α : Type) :=
  Unread → Except Fault (α × Unread)

/-- A node of a document that is being read: how deep nodes inside it may be nested, and the way to it. -/
structure Spot where
  document : Loaded
  depth : Nat
  path : Path := []

/-- Lists and maps may be nested so deep in values that are read. -/
def nesting : Nat :=
  128

/-- As many references may be followed for every part of a document. -/
def referencesPerPart : Nat :=
  100

namespace Spot

def inside (spot : Spot) (depth : Nat) (step : Yaml.Step) : Spot :=
  { spot with depth, path := step :: spot.path }

/-- Reads the node that comes next, or the one that a reference in its place leads to. -/
def follow (spot : Spot) (read : Reader α) (u : Unread) : Except Fault (α × Unread) :=
  match u.parts with
  | (.reference number, _) :: rest =>
    if referencesPerPart * spot.document.parts.length ≤ u.followed then .error .tooManyReferences
    else do
      let (a, v) ← read ⟨spot.document.target number, u.followed + 1⟩
      return (a, { v with parts := rest })
  | _ => read u

/-- Reads a node from its first part on. Mismatches that have no place yet are placed at it. -/
def atNode (spot : Spot) (read : Part → Mark → Reader α) : Reader α :=
  spot.follow fun u =>
    match u.parts with
    | [] => .error spot.document.stop
    | (part, mark) :: rest => (read part mark { u with parts := rest }).mapError (Fault.place mark spot.path)

end Spot

/-- The fault of a part that is not what is expected. -/
def refuse (expected : String) : Part → Fault
  | .scalar s => .mismatch (s.mismatch expected)
  | .listStart _ => .mismatch (.wrongType .sequence expected)
  | .mapStart _ => .mismatch (.wrongType .map expected)
  | _ => .endOfValue

/-- The items of a list after its start; `item` is given the number of each. A node has at least one part,
so no more rounds are needed than parts are left. -/
def readItems (spot : Spot) (item : Nat → Reader α) :
    List (Placed Part) → Nat → List α → Reader (List α)
  | [], _, _, _ => .error spot.document.stop
  | _ :: fuel, index, done, u =>
    match u.parts with
    | [] => .error spot.document.stop
    | (.listEnd, _) :: rest => .ok (done.reverse, { u with parts := rest })
    | _ => do
      let (a, u) ← item index u
      readItems spot item fuel (index + 1) (a :: done) u

/-- The entries of a map after its start, each taken by `entry` from its key on. -/
def readEntries (spot : Spot) (entry : σ → Reader σ) : List (Placed Part) → σ → Reader σ
  | [], _, _ => .error spot.document.stop
  | _ :: fuel, state, u =>
    match u.parts with
    | [] => .error spot.document.stop
    | (.mapEnd, _) :: rest => .ok (state, { u with parts := rest })
    | _ => do
      let (state, u) ← entry state u
      readEntries spot entry fuel state u

/-- The step to the value of the key that comes next. -/
def Unread.keyStep (u : Unread) : Step :=
  match u.parts with
  | (.scalar s, _) :: _ => .field s.text
  | _ => .nameless

/-- Passes over a node inside so many open lists and maps, and on until all of them are closed. -/
def skipParts (fault : Fault) : Nat → List (Placed Part) → Except Fault (List (Placed Part))
  | _, [] => .error fault
  | level, (part, _) :: rest =>
    let level := match part with
      | .listStart _ | .mapStart _ => level + 1
      | .listEnd | .mapEnd => level - 1
      | _ => level
    if level = 0 then .ok rest else skipParts fault level rest

/-- Passes over a node; references in it are not followed. -/
def skipNode (spot : Spot) (u : Unread) : Except Fault Unread := do
  return { u with parts := ← skipParts spot.document.stop 0 u.parts }

/-- The text of any scalar, made into a value. -/
def readTextAs (expected : String) (take : String → Except Mismatch α) (spot : Spot) : Reader α :=
  spot.atNode fun part _ u =>
    match part with
    | .scalar s => do return (← (take s.text).mapError .mismatch, u)
    | part => .error (refuse expected part)

def readText : Spot → Reader String :=
  readTextAs "a string" .ok

def readFloat : Spot → Reader Float := fun spot =>
  spot.atNode fun part _ u =>
    let number? := match part with
      | .scalar s => if s.isBare .float then readNumber s.text else none
      | _ => none
    match number? with
    | some x => .ok (x, u)
    | none => .error (refuse "f64" part)

def readNatAs (expected : String) (take : Datum → Except Mismatch α) (spot : Spot) : Reader α :=
  spot.atNode fun part _ u =>
    let natural? := match part with
      | .scalar s => if s.isBare .int then readNatural s.text else none
      | _ => none
    match natural? with
    | some n => do return (← (take (.nat n)).mapError .mismatch, u)
    | none => .error (refuse expected part)

def readCount : Spot → Reader UInt32 :=
  readNatAs "u32" Datum.count

def readIndex : Spot → Reader Nat :=
  readNatAs "usize" Datum.index

/-- Whether a node is null where a value is optional. -/
def isAbsent : List (Placed Part) → Except Mismatch Bool
  | (.scalar s, _) :: _ =>
    if s.style ≠ .plain then .ok false
    else if s.tag = some .null then
      if isNullText s.text then .ok true else .error (.wrongValue (.text s.text) "null")
    else .ok (s.tag.isNone && (s.text.isEmpty || isNullText s.text))
  | _ => .ok false

def readOptional (read : Spot → Reader α) (spot : Spot) : Reader (Option α) :=
  spot.follow fun u => do
    if ← (isAbsent u.parts).mapError .mismatch then return (none, { u with parts := u.parts.drop 1 })
    else
      let (a, u) ← read spot u
      return (some a, u)

/-- A list; an empty scalar is one too. -/
def readListOf (item : Spot → Reader α) (spot : Spot) : Reader (List α) :=
  spot.atNode fun part mark u =>
    match part, spot.depth with
    | .listStart _, 0 => .error (.tooDeep mark)
    | .listStart _, depth + 1 =>
      readItems spot (fun index => item (spot.inside depth (.item index))) u.parts 0 [] u
    | .scalar s, _ => if s.isEmpty then .ok ([], u) else .error (refuse "a sequence" part)
    | part, _ => .error (refuse "a sequence" part)

def Part.tag? : Part → Option Tag
  | .scalar s => s.tag
  | .listStart tag | .mapStart tag => tag
  | _ => none

/-- Whether a tag makes a tagged value of a node of unknown type. -/
def Part.isTagged (part : Part) : Bool :=
  part.tag?.any fun tag => tag.isLocal && tag.isText

/-- What values are called that may be anything. -/
def anyValue : String :=
  "any value"

/-- Any value, within a number of nested lists and maps. -/
def readDatumAs (expected : String) (document : Loaded) (depth : Nat) (path : Path) : Reader Datum :=
  (Spot.mk document depth path).atNode fun part mark u =>
    if part.isTagged then .error (.mismatch .taggedContent)
    else
      match part, depth with
      | .scalar s, _ => do return (← (s.datum expected).mapError .mismatch, u)
      | .listStart _, 0 | .mapStart _, 0 => .error (.tooDeep mark)
      | .listStart _, depth + 1 => do
        let item (index : Nat) (u : Unread) := readDatumAs anyValue document depth (.item index :: path) u
        let (items, u) ← readItems ⟨document, depth, path⟩ item u.parts 0 [] u
        return (.list items, u)
      | .mapStart _, depth + 1 => do
        let entry (done : List (Datum × Datum)) (u : Unread) := do
          let step := u.keyStep
          let (key, u) ← readDatumAs anyValue document depth path u
          let (value, u) ← readDatumAs anyValue document depth (step :: path) u
          return ((key, value) :: done, u)
        let (entries, u) ← readEntries ⟨document, depth, path⟩ entry u.parts [] u
        return (.map entries.reverse, u)
      | part, _ => .error (refuse expected part)

def readDatum (spot : Spot) : Reader Datum :=
  readDatumAs anyValue spot.document spot.depth spot.path

/-- How a field of a record is read where its value stands. -/
abbrev Setter (σ : Type) :=
  Spot → σ → Reader σ

def readField (schema : Schema (Setter σ)) (spot : Spot) (state : σ × List Nat) (u : Unread) :
    Except Fault ((σ × List Nat) × Unread) := do
  let step := u.keyStep
  let (index, u) ← readTextAs "field identifier" (fun name => .ok (schema.index? name)) spot u
  match index.bind fun i => schema.fields[i]?.map (i, ·) with
  | none => return (state, ← skipNode spot u)
  | some (i, field) =>
    if state.2.contains i then throw (.mismatch (.duplicateField field.name))
    else
      let (record, u) ← field.read { spot with path := step :: spot.path } state.1 u
      return ((record, i :: state.2), u)

/-- Reads a record over the values that its fields have by default; unknown fields are passed over. An
empty scalar is a record without fields. -/
def readRecord (schema : Schema (Setter σ)) (default : σ) (spot : Spot) : Reader σ :=
  let finish (seen : List Nat) (result : σ × Unread) : Except Fault (σ × Unread) :=
    match schema.missing? seen with
    | some field => .error (.mismatch (.missingField field.name))
    | none => .ok result
  spot.atNode fun part mark u =>
    match part, spot.depth with
    | .mapStart _, 0 => .error (.tooDeep mark)
    | .mapStart _, depth + 1 => do
      let ((record, seen), u) ←
        readEntries spot (readField schema { spot with depth }) u.parts (default, []) u
      finish seen (record, u)
    | .scalar s, _ => if s.isEmpty then finish [] (default, u) else .error (refuse schema.title part)
    | part, _ => .error (refuse schema.title part)

/-- Reads the only document of a text. -/
def readWhole (read : Spot → Reader α) (source : List Char) : Except Fault α := do
  let (document, more) := Loaded.first source
  let (a, _) ← read ⟨document, nesting, []⟩ ⟨document.parts, 0⟩
  match document.fault with
  | some fault => throw fault
  | none => if more then throw .manyDocuments else return a

end Tablature.Yaml
