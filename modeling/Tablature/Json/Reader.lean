import Tablature.Json.Skip
import Tablature.Datum.Schema

namespace Tablature.Json

/-- Lists and objects may be nested so deep in values that are read. -/
def nesting : Nat :=
  127

/-- A literal, number or string from its first character on. -/
def readScalar (cs : List Char) : Except Fault (Datum × List Char) :=
  match cs with
  | [] => .error (.here .endOfValue [])
  | c :: rest =>
    if c = 'n' then (Datum.null, ·) <$> readWord ['u', 'l', 'l'] rest
    else if c = 't' then (Datum.bool true, ·) <$> readWord ['r', 'u', 'e'] rest
    else if c = 'f' then (Datum.bool false, ·) <$> readWord ['a', 'l', 's', 'e'] rest
    else if c = '-' then (fun (n, cs) => (n.datum, cs)) <$> readNumber true rest
    else if isDigit c then (fun (n, cs) => (n.datum, cs)) <$> readNumber false cs
    else if c = '"' then (fun (s, cs) => (.text s, cs)) <$> readString rest
    else .error (.next .expectedValue cs)

/-- The fault of a value that is not what is expected. Of lists and objects only the bracket is seen. -/
def refuse (expected : String) (cs : List Char) : Fault :=
  match cs with
  | '[' :: _ => .here (.mismatch (.wrongType .sequence expected)) cs
  | '\x7b' :: _ => .here (.mismatch (.wrongType .map expected)) cs
  | _ =>
    match readScalar cs with
    | .ok (datum, rest) => .here (.mismatch (.wrongType datum.found expected)) rest
    | .error fault => fault

/-- Where a list that is given up stands: after its closing bracket or comma, if it is there. -/
def closeList (cs : List Char) : List Char :=
  match skipSpace cs with
  | ']' :: rest => rest
  | ',' :: rest => skipSpace rest
  | rest => rest

def closeObject (cs : List Char) : List Char :=
  match skipSpace cs with
  | '\x7d' :: rest => rest
  | rest => rest

/-- The next item of a list, `none` at its end. -/
def nextItem (first : Bool) (cs : List Char) : Except Fault (Option (List Char) × List Char) :=
  match skipSpace cs with
  | [] => .error (.here .endOfList [])
  | c :: rest =>
    if c = ']' then .ok (none, rest)
    else if first then .ok (some (c :: rest), [])
    else if c = ',' then
      match skipSpace rest with
      | [] => .error (.here .endOfValue [])
      | d :: rest => if d = ']' then .error (.next .trailingComma (d :: rest)) else .ok (some (d :: rest), [])
    else .error (.next .expectedListEnd (c :: rest))

/-- The items of a list after those that are done. Each takes at least one character. -/
def readItems (item : List Char → Except Fault (α × List Char)) :
    Nat → Bool → List α → List Char → Except Fault (List α × List Char)
  | 0, _, _, cs => .error (.here .endOfList cs)
  | fuel + 1, first, done, cs => do
    match ← nextItem first cs with
    | (none, rest) => return (done.reverse, rest)
    | (some cs, _) =>
      let (a, rest) ← (item cs).mapError (Fault.place closeList)
      readItems item fuel false (a :: done) rest

/-- The next key of an object, `none` at its end. -/
def nextKey (first : Bool) (cs : List Char) : Except Fault (Option String × List Char) :=
  match skipSpace cs with
  | [] => .error (.here .endOfObject [])
  | c :: rest =>
    if c = '\x7d' then .ok (none, rest)
    else if first then
      if c = '"' then (fun (key, cs) => (some key, cs)) <$> readString rest
      else .error (.next .keyNotString (c :: rest))
    else if c = ',' then
      match skipSpace rest with
      | [] => .error (.here .endOfValue [])
      | d :: rest =>
        if d = '"' then (fun (key, cs) => (some key, cs)) <$> readString rest
        else if d = '\x7d' then .error (.next .trailingComma (d :: rest))
        else .error (.next .keyNotString (d :: rest))
    else .error (.next .expectedObjectEnd (c :: rest))

def readColon (cs : List Char) : Except Fault (List Char) :=
  match skipSpace cs with
  | [] => .error (.here .endOfObject [])
  | c :: rest => if c = ':' then .ok rest else .error (.next .expectedColon (c :: rest))

/-- The fields of an object, each taken by `field` from its key on. -/
def readFields (field : σ → String → List Char → Except Fault (σ × List Char)) :
    Nat → Bool → σ → List Char → Except Fault (σ × List Char)
  | 0, _, _, cs => .error (.here .endOfObject cs)
  | fuel + 1, first, state, cs => do
    match ← nextKey first cs with
    | (none, rest) => return (state, rest)
    | (some key, rest) =>
      let (state, rest) ← (field state key rest).mapError (Fault.place closeObject)
      readFields field fuel false state rest

/-- Any value, within a number of nested lists and objects. -/
def readDatum (depth : Nat) (cs : List Char) : Except Fault (Datum × List Char) :=
  match skipSpace cs with
  | '[' :: rest =>
    match depth with
    | 0 => .error (.next .tooDeep ('[' :: rest))
    | depth + 1 => do
      let (items, rest) ← readItems (readDatum depth) (rest.length + 1) true [] rest
      return (.list items, rest)
  | '\x7b' :: rest =>
    match depth with
    | 0 => .error (.next .tooDeep ('\x7b' :: rest))
    | depth + 1 => do
      let entry (done : List (Datum × Datum)) (key : String) (cs : List Char) := do
        let (value, cs) ← readDatum depth (← readColon cs)
        return ((Datum.text key, value) :: done, cs)
      let (entries, rest) ← readFields entry (rest.length + 1) true [] rest
      return (.map entries.reverse, rest)
  | rest => readScalar rest

/-- How a field of a record is read where its value stands, within a depth. -/
abbrev Setter (σ : Type) :=
  Nat → σ → List Char → Except Fault (σ × List Char)

def readField (schema : Schema (Setter σ)) (depth : Nat) (state : σ × List Nat) (key : String)
    (cs : List Char) : Except Fault ((σ × List Nat) × List Char) :=
  match schema.index? key with
  | none => do
    let rest ← skipValue (← readColon cs)
    return (state, rest)
  | some i =>
    match schema.fields[i]? with
    | none => .error (.adrift (.missingField key) cs)
    | some field =>
      if state.2.contains i then .error (.adrift (.duplicateField key) cs)
      else do
        let (record, rest) ← field.read depth state.1 (← readColon cs)
        return ((record, i :: state.2), rest)

/-- The values of a record that is written as a list. -/
def readInOrder (schema : Schema (Setter σ)) (depth : Nat) :
    Nat → σ → List (Field (Setter σ)) → List Char → Except Fault (σ × List Char)
  | _, record, [], cs =>
    match skipSpace cs with
    | [] => .error (.here .endOfList [])
    | ']' :: rest => .ok (record, rest)
    | ',' :: rest =>
      match skipSpace rest with
      | ']' :: rest => .error (.next .trailingComma (']' :: rest))
      | rest => .error (.next .trailingCharacters rest)
    | rest => .error (.next .trailingCharacters rest)
  | count, record, field :: fields, cs => do
    match ← nextItem (count = 0) cs with
    | (none, rest) =>
      match schema.shortList? count with
      | some mismatch => .error (.here (.mismatch mismatch) rest)
      | none => return (record, rest)
    | (some cs, _) =>
      let (record, rest) ← field.read depth record cs
      readInOrder schema depth (count + 1) record fields rest

/-- Reads a record over the values that its fields have by default; unknown fields are passed over. -/
def readRecord (schema : Schema (Setter σ)) (default : σ) (depth : Nat) (cs : List Char) :
    Except Fault (σ × List Char) :=
  match skipSpace cs with
  | [] => .error (.here .endOfValue [])
  | '\x7b' :: rest =>
    match depth with
    | 0 => .error (.next .tooDeep ('\x7b' :: rest))
    | depth + 1 => do
      let ((record, seen), rest) ←
        readFields (readField schema depth) (rest.length + 1) true (default, []) rest
      match schema.missing? seen with
      | some field => .error (.here (.mismatch (.missingField field.name)) rest)
      | none => return (record, rest)
  | '[' :: rest =>
    match depth with
    | 0 => .error (.next .tooDeep ('[' :: rest))
    | depth + 1 => readInOrder schema depth 0 default schema.fields rest
  | rest => .error (refuse schema.title rest)

def readListOf (item : Nat → List Char → Except Fault (α × List Char)) (depth : Nat) (cs : List Char) :
    Except Fault (List α × List Char) :=
  match skipSpace cs with
  | [] => .error (.here .endOfValue [])
  | '[' :: rest =>
    match depth with
    | 0 => .error (.next .tooDeep ('[' :: rest))
    | depth + 1 => readItems (item depth) (rest.length + 1) true [] rest
  | rest => .error (refuse "a sequence" rest)

def readText (cs : List Char) : Except Fault (String × List Char) :=
  match skipSpace cs with
  | [] => .error (.here .endOfValue [])
  | '"' :: rest => readString rest
  | rest => .error (refuse "a string" rest)

/-- A number, `none` if something else stands there. -/
def number? (cs : List Char) : Option (Except Fault (Number × List Char)) :=
  match cs with
  | [] => none
  | c :: rest =>
    if c = '-' then some (readNumber true rest)
    else if isDigit c then some (readNumber false (c :: rest))
    else none

def readNumberAs (take : Datum → Except Mismatch α) (expected : String) (cs : List Char) :
    Except Fault (α × List Char) :=
  match skipSpace cs with
  | [] => .error (.here .endOfValue [])
  | cs =>
    match number? cs with
    | none => .error (refuse expected cs)
    | some result => do
      let (n, rest) ← result
      match take n.datum with
      | .ok a => return (a, rest)
      | .error mismatch => .error (.here (.mismatch mismatch) rest)

/-- A tempo as it is stored: absent if it is null or `unsetTempo`. -/
def readTempo (cs : List Char) : Except Fault (Option Float × List Char) :=
  match skipSpace cs with
  | 'n' :: rest => (none, ·) <$> readWord ['u', 'l', 'l'] rest
  | cs => do
    let (bpm, rest) ← readNumberAs Datum.number "f64" cs
    return (storedTempo bpm, rest)

def readCount (cs : List Char) : Except Fault (UInt32 × List Char) :=
  readNumberAs Datum.count "u32" cs

/-- Reads a whole text with a reader that takes one value. -/
def readWhole (read : List Char → Except Fault (α × List Char)) (source : List Char) : Except Fault α := do
  let (a, rest) ← read source
  match skipSpace rest with
  | [] => return a
  | rest => .error (.next .trailingCharacters rest)

/-- A JSON text as a value. -/
def datumOf (source : String) : Except Fault Datum :=
  readWhole (readDatum nesting) source.toList

end Tablature.Json
