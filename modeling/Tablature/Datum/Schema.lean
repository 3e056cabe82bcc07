import Tablature.Datum.Mismatch

namespace Tablature

/-- A field of a record: its name, whether it must be there, and how it is read. -/
structure Field (ρ : Type) where
  name : String
  required : Bool := false
  read : ρ

/-- A kind of record in data files. `title` is what messages call it. A record is a map from names, or
in some places a list in the order of the fields. -/
structure Schema (ρ : Type) where
  title : String
  fields : List (Field ρ)

namespace Schema

def index? (schema : Schema ρ) (name : String) : Option Nat :=
  schema.fields.findIdx? fun field => field.name == name

/-- The first required field among those that were not seen. -/
def missing? (schema : Schema ρ) (seen : List Nat) : Option (Field ρ) :=
  (schema.fields.zipIdx.find? fun (field, i) => field.required && !seen.contains i).map Prod.fst

/-- The complaint about a list that ends before the field at `count` and a required one after it. -/
def shortList? (schema : Schema ρ) (count : Nat) : Option Mismatch :=
  (schema.fields.zipIdx.find? fun (field, i) => field.required && count ≤ i).map fun (_, i) =>
    .wrongLength i (schema.title ++ " with " ++ toString schema.fields.length ++ " elements")

end Schema

/-- How a list may complain that it holds more than its record has fields. -/
structure Surplus where
  expected : Nat → String

/-- "elements in sequence", counted. -/
def Surplus.counted : Surplus :=
  ⟨fun n => toString n ++ if n = 1 then " element in sequence" else " elements in sequence"⟩

def Surplus.uncounted : Surplus :=
  ⟨fun _ => "fewer elements in array"⟩

namespace Datum

/-- How a field of a record is set from a datum. -/
abbrev Setter (σ : Type) :=
  σ → Datum → Except Mismatch σ

/-- The field that a key names: by its text, or by its number. -/
def fieldIndex (schema : Schema ρ) : Datum → Except Mismatch (Option Nat)
  | text name => .ok (schema.index? name)
  | nat n => .ok (if n < schema.fields.length then some n else none)
  | key => .error (.wrongType key.found "field identifier")

def setFields (schema : Schema (Setter σ)) (record : σ) (seen : List Nat) :
    List (Datum × Datum) → Except Mismatch σ
  | [] =>
    match schema.missing? seen with
    | some field => .error (.missingField field.name)
    | none => .ok record
  | (key, value) :: entries => do
    match ← fieldIndex schema key with
    | none => setFields schema record seen entries
    | some i =>
      match schema.fields[i]? with
      | none => setFields schema record seen entries
      | some field =>
        if seen.contains i then .error (.duplicateField field.name)
        else setFields schema (← field.read record value) (i :: seen) entries

def setInOrder (schema : Schema (Setter σ)) (surplus : Surplus) (total : Nat) (record : σ) :
    List (Field (Setter σ)) → List Datum → Except Mismatch σ
  | [], [] => .ok record
  | [], _ :: _ => .error (.wrongLength total (surplus.expected schema.fields.length))
  | _ :: _, [] =>
    match schema.shortList? total with
    | some mismatch => .error mismatch
    | none => .ok record
  | field :: fields, item :: items => do
    setInOrder schema surplus total (← field.read record item) fields items

/-- Reads a record over the values that its fields have by default. -/
def record (schema : Schema (Setter σ)) (surplus : Surplus) (default : σ) : Datum → Except Mismatch σ
  | map entries => setFields schema default [] entries
  | list items => setInOrder schema surplus items.length default schema.fields items
  | datum => .error (.wrongType datum.found schema.title)

/-- Puts an entry into its place by the text of its key; a later one replaces its like. -/
def insertEntry (name : String) (value : Datum) : List (Datum × Datum) → List (Datum × Datum)
  | [] => [(.text name, value)]
  | (.text other, old) :: entries =>
    if name = other then (.text name, value) :: entries
    else if name < other then (.text name, value) :: (.text other, old) :: entries
    else (.text other, old) :: insertEntry name value entries
  | entry :: entries => entry :: insertEntry name value entries

/-- The entries of a map in the order of their keys, of those with one key the last. -/
def sortEntries : Datum → Datum
  | map entries =>
    .map (entries.foldl (fun sorted entry =>
      match entry.1 with
      | text name => insertEntry name entry.2 sorted
      | _ => sorted) [])
  | datum => datum

def string : Datum → Except Mismatch String
  | text s => .ok s
  | datum => .error (.wrongType datum.found "a string")

def items : Datum → Except Mismatch (List Datum)
  | list items => .ok items
  | datum => .error (.wrongType datum.found "a sequence")

def listOf (read : Datum → Except Mismatch α) (datum : Datum) : Except Mismatch (List α) := do
  (← datum.items).mapM read

def number : Datum → Except Mismatch Float
  | nat n => .ok (Float.ofNat n)
  | int i => .ok (Float.ofInt i)
  | float x => .ok x
  | datum => .error (.wrongType datum.found "f64")

def optional (read : Datum → Except Mismatch α) : Datum → Except Mismatch (Option α)
  | null => .ok none
  | datum => some <$> read datum

/-- A tempo as it is stored: absent if it is null or `unsetTempo`. -/
def tempo (datum : Datum) : Except Mismatch (Option Float) := do
  return (← datum.optional number).bind storedTempo

/-- A natural number below a limit. -/
def natBelow (limit : Nat) (expected : String) : Datum → Except Mismatch Nat
  | nat n => if n < limit then .ok n else .error (.wrongValue (.int n) expected)
  | int i => if 0 ≤ i ∧ i < limit then .ok i.toNat else .error (.wrongValue (.int i) expected)
  | datum => .error (.wrongType datum.found expected)

/-- A natural number of 32 bits. -/
def count (datum : Datum) : Except Mismatch UInt32 := do
  return UInt32.ofNat (← datum.natBelow 0x100000000 "u32")

/-- A natural number of 64 bits. -/
def index (datum : Datum) : Except Mismatch Nat :=
  datum.natBelow 0x10000000000000000 "usize"

end Datum

end Tablature
