import Tablature.Proofs.Json.Reads

namespace Tablature.Json

theorem opens_solid {c : Char} {cs : List Char} (solid : isSpace c = false) (other : c ≠ ']') : Opens (c :: cs) :=
  ⟨c, cs, rfl, solid, other⟩

theorem readColon_colon (cs : List Char) : readColon (':' :: cs) = .ok cs := by
  have colon : isSpace ':' = false := rfl
  rw [readColon, skipSpace_cons colon]
  rfl

/-- An entry of a map as it is read, put in front of those before. -/
def readEntry (value : List Char → Except Fault (Datum × List Char)) (done : List (Datum × Datum)) (key : String)
    (cs : List Char) : Except Fault (List (Datum × Datum) × List Char) := do
  let (datum, cs) ← value (← readColon cs)
  return ((Datum.text key, datum) :: done, cs)

/-- Any value as `readDatum` takes it, with scalars as another reader takes them. -/
def readNested (scalar : List Char → Except Fault (Datum × List Char)) (depth : Nat) (cs : List Char) :
    Except Fault (Datum × List Char) :=
  match skipSpace cs with
  | '[' :: rest =>
    match depth with
    | 0 => .error (.next .tooDeep ('[' :: rest))
    | depth + 1 => do
      let (items, rest) ← readItems (readNested scalar depth) (rest.length + 1) true [] rest
      return (.list items, rest)
  | '\x7b' :: rest =>
    match depth with
    | 0 => .error (.next .tooDeep ('\x7b' :: rest))
    | depth + 1 => do
      let (entries, rest) ← readFields (readEntry (readNested scalar depth)) (rest.length + 1) true [] rest
      return (.map entries.reverse, rest)
  | rest => scalar rest

theorem readDatum_nested (depth : Nat) : readDatum depth = readNested readScalar depth := by
  induction depth with
  | zero =>
    funext cs
    exact (readDatum.eq_def 0 cs).trans (readNested.eq_def readScalar 0 cs).symm
  | succ depth ih =>
    funext cs
    rw [readDatum.eq_def, readNested.eq_def]
    dsimp only
    rw [ih]
    rfl

section Parts

variable {scalar : List Char → Except Fault (Datum × List Char)} {blanks cs : List Char}

theorem readNested_scalar {c : Char} (depth : Nat) (spaces : AllSpace blanks) (solid : isSpace c = false)
    (notList : c ≠ '[') (notObject : c ≠ '\x7b') : readNested scalar depth (blanks ++ c :: cs) = scalar (c :: cs) := by
  rw [readNested.eq_def, skipSpace_to spaces solid]
  split
  · next same => exact absurd (List.cons.inj same).1 notList
  · next same => exact absurd (List.cons.inj same).1 notObject
  · rfl

/-- A text that no list or object begins with is read as the scalar that it is. -/
theorem readNested_bare {c : Char} {datum : Datum} (solid : isSpace c = false) (notList : c ≠ '[') (notClose : c ≠ ']')
    (notObject : c ≠ '\x7b') (read : ∀ rest, EndsNumber rest → scalar (c :: cs ++ rest) = .ok (datum, rest))
    (depth : Nat) : Reads (readNested scalar depth) (c :: cs) datum where
  opens := opens_solid solid notClose
  reads := by
    intro blanks rest spaces ends
    rw [List.append_assoc, List.cons_append, readNested_scalar depth spaces solid notList notObject,
      ← List.cons_append, read rest ends]

theorem readNested_list (depth : Nat) (spaces : AllSpace blanks) (cs : List Char) :
    readNested scalar (depth + 1) (blanks ++ '[' :: cs) =
      (fun (items, rest) => (.list items, rest)) <$>
        readItems (readNested scalar depth) (cs.length + 1) true [] cs := by
  rw [readNested.eq_def, skipSpace_to spaces rfl]
  rfl

theorem readNested_map (depth : Nat) (spaces : AllSpace blanks) (cs : List Char) :
    readNested scalar (depth + 1) (blanks ++ '\x7b' :: cs) =
      (fun (entries, rest) => (.map entries.reverse, rest)) <$>
        readFields (readEntry (readNested scalar depth)) (cs.length + 1) true [] cs := by
  rw [readNested.eq_def, skipSpace_to spaces rfl]
  rfl

/-- The entry of a map is read from the field. -/
def ReadsField (value : List Char → Except Fault (Datum × List Char)) (field : String × List Char)
    (entry : Datum × Datum) : Prop :=
  entry.1 = .text field.1 ∧ Reads value field.2 entry.2

theorem setsAll_entries {value : List Char → Except Fault (Datum × List Char)} {fields : List (String × List Char)}
    {entries : List (Datum × Datum)} (each : List.Forall₂ (ReadsField value) fields entries)
    (done : List (Datum × Datum)) : SetsAll (readEntry value) fields done (entries.reverse ++ done) := by
  induction each generalizing done with
  | nil => exact .nil
  | @cons field entry fields entries reads _ ih =>
    obtain ⟨key, text⟩ := field
    obtain ⟨name, datum⟩ := entry
    obtain ⟨rfl, reads⟩ := reads
    rw [List.reverse_cons, List.append_assoc, List.singleton_append]
    refine .cons (fun blanks rest spaces ends => ?_) (ih ((.text key, datum) :: done))
    rw [readEntry, List.cons_append, List.cons_append, readColon_colon, ok_bind, reads.reads blanks rest spaces ends]
    rfl

variable {layout : Layout} (spaced : layout.Spaced) {depth : Nat}

include spaced

theorem readNested_items {texts : List (List Char)} {data : List Datum}
    (each : List.Forall₂ (Reads (readNested scalar depth)) texts data) (outer : Nat) :
    Reads (readNested scalar (depth + 1)) ('[' :: interior ']' layout outer texts) (.list data) where
  opens := opens_solid rfl (by decide)
  reads := by
    intro blanks rest spaces _
    rw [List.append_assoc, List.cons_append, readNested_list depth spaces, readItems_interior spaced each]
    rfl

theorem readNested_fields {fields : List (String × List Char)} {entries : List (Datum × Datum)}
    (each : List.Forall₂ (ReadsField (readNested scalar depth)) fields entries) (outer : Nat) :
    Reads (readNested scalar (depth + 1))
      ('\x7b' :: interior '\x7d' layout outer (fields.map (fieldChars layout))) (.map entries) where
  opens := opens_solid rfl (by decide)
  reads := by
    intro blanks rest spaces _
    have all := readFields_interior spaced (setsAll_entries each []) outer rest
    rw [List.append_nil] at all
    rw [List.append_assoc, List.cons_append, readNested_map depth spaces, all]
    change Except.ok (Datum.map entries.reverse.reverse, rest) = _
    rw [List.reverse_reverse]

end Parts

end Tablature.Json
