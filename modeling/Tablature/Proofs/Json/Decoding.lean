import Tablature.Proofs.Json.Literals

namespace Tablature.Json

variable {α β ρ σ : Type}

/-- The value, written in any layout, is read as `a`. -/
def Loads (value : Json) (read : List Char → Except Fault (α × List Char)) (a : α) : Prop :=
  ∀ layout : Layout, layout.Spaced → ∀ outer, Reads read (write layout outer value) a

/-- The value, written in any layout, is read as a datum that is taken for `a`. -/
def Decodes (depth : Nat) (value : Json) (take : Datum → Except Mismatch α) (a : α) : Prop :=
  ∃ datum, take datum = .ok a ∧ Loads value (readDatum depth) datum

theorem Loads.text (s : String) : Loads (.text s) readText s := by
  intro layout _ outer
  rw [write]
  exact readText_text s

theorem Loads.count (n : UInt32) : Loads (.nat n.toNat) readCount n := by
  intro layout _ outer
  rw [nat, write]
  exact readCount_nat n

theorem Decodes.text (depth : Nat) (s : String) {take : Datum → Except Mismatch α} {a : α}
    (taken : take (.text s) = .ok a) : Decodes depth (.text s) take a := by
  refine ⟨.text s, taken, fun layout _ outer => ?_⟩
  rw [write]
  exact reads_text depth s

theorem Decodes.string (depth : Nat) (s : String) : Decodes depth (.text s) Datum.string s :=
  .text depth s rfl

theorem Decodes.int (depth : Nat) {i : Int} (range : InRange i) {take : Datum → Except Mismatch α} {a : α}
    (taken : take (wholeDatum i) = .ok a) : Decodes depth (.int i) take a := by
  refine ⟨wholeDatum i, taken, fun layout _ outer => ?_⟩
  rw [write]
  exact reads_int depth range

theorem Decodes.count (depth : Nat) (n : UInt32) : Decodes depth (.nat n.toNat) Datum.count n := by
  have below := n.toNat_lt
  refine .int depth ⟨by omega, by omega⟩ ?_
  rw [wholeDatum_nat, count_nat]

theorem Decodes.andThen {depth : Nat} {value : Json} {take : Datum → Except Mismatch α} {a : α}
    (decodes : Decodes depth value take a) {next : α → Except Mismatch β} {b : β} (same : next a = .ok b) :
    Decodes depth value (fun datum => take datum >>= next) b := by
  obtain ⟨datum, taken, loads⟩ := decodes
  refine ⟨datum, ?_, loads⟩
  change take datum >>= next = _
  rw [taken]
  exact same

/-- A literal is read as a datum, if only to be passed over. -/
theorem IsLiteral.loads {value : Json} (literal : IsLiteral value) (depth : Nat) :
    ∃ datum, Loads value (readDatum depth) datum := by
  cases literal with
  | null =>
    refine ⟨.null, fun layout _ outer => ?_⟩
    rw [write]
    exact reads_null depth
  | bool value => exact ⟨.bool value, fun layout _ outer => reads_bool depth layout outer value⟩

section Lists

theorem Loads.items {item : Nat → List Char → Except Fault (α × List Char)} {depth : Nat} {values : List Json}
    {results : List α} (each : List.Forall₂ (fun value a => Loads value (item depth) a) values results) :
    Loads (.list values) (readListOf item (depth + 1)) results := by
  intro layout spaced outer
  rw [write_list]
  refine readListOf_list spaced ?_ outer
  rw [List.forall₂_map_left_iff]
  exact each.imp fun _ _ loads => loads layout spaced (outer + 1)

/-- A list of values is held as the list of what they are held as. -/
theorem loads_data {depth : Nat} {values : List Json} {data : List Datum}
    (each : List.Forall₂ (fun value datum => Loads value (readDatum depth) datum) values data) :
    Loads (.list values) (readDatum (depth + 1)) (.list data) := by
  intro layout spaced outer
  rw [write_list]
  refine reads_list spaced ?_ outer
  rw [List.forall₂_map_left_iff]
  exact each.imp fun _ _ loads => loads layout spaced (outer + 1)

theorem Decodes.items {take : Datum → Except Mismatch α} {depth : Nat} {values : List Json} {results : List α}
    (each : List.Forall₂ (fun value a => Decodes depth value take a) values results) :
    Decodes (depth + 1) (.list values) (Datum.listOf take) results := by
  have gathered : ∃ data, data.mapM take = .ok results ∧
      List.Forall₂ (fun value datum => Loads value (readDatum depth) datum) values data := by
    induction each with
    | nil => exact ⟨[], rfl, .nil⟩
    | @cons value a values results decodes _ ih =>
      obtain ⟨datum, taken, loads⟩ := decodes
      obtain ⟨data, takenAll, loadsAll⟩ := ih
      refine ⟨datum :: data, ?_, .cons loads loadsAll⟩
      rw [List.mapM_cons, taken, takenAll]
      rfl
  obtain ⟨data, taken, loads⟩ := gathered
  exact ⟨.list data, taken, loads_data loads⟩

variable {json : β → Json} {result : β → α} {items : List β}

theorem Decodes.list {take : Datum → Except Mismatch α} {depth : Nat}
    (each : ∀ b ∈ items, Decodes depth (json b) take (result b)) :
    Decodes (depth + 1) (.list (items.map json)) (Datum.listOf take) (items.map result) := by
  refine .items ?_
  rw [List.forall₂_map_left_iff, List.forall₂_map_right_iff, List.forall₂_same]
  exact each

theorem Decodes.texts (depth : Nat) (values : List String) :
    Decodes (depth + 1) (texts values) (Datum.listOf Datum.string) values := by
  have list := Decodes.list fun s (_ : s ∈ values) => Decodes.string depth s
  rwa [List.map_id'] at list

end Lists

section Records

/-- The fields of an object fill a record: each sets a field of it, and none a second time, or is a literal under a
key that the record does not know. -/
inductive Fills (schema : Schema ρ) (sets : ρ → Json → σ → σ → Prop) :
    List (String × Json) → σ → List Nat → σ → List Nat → Prop
  | nil {record seen} : Fills schema sets [] record seen record seen
  | cons {key value fields name required read record next final seen all} (i : Nat)
      (named : schema.index? key = some i) (placed : schema.fields[i]? = some ⟨name, required, read⟩)
      (fresh : seen.contains i = false) (set : sets read value record next)
      (rest : Fills schema sets fields next (i :: seen) final all) :
      Fills schema sets ((key, value) :: fields) record seen final all
  | skip {key value fields record seen final all} (unknown : schema.index? key = none) (literal : IsLiteral value)
      (rest : Fills schema sets fields record seen final all) :
      Fills schema sets ((key, value) :: fields) record seen final all

/-- The written value, where it stands in a text, takes a record on to the next. -/
def TextSets (depth : Nat) (read : Setter σ) (value : Json) (record next : σ) : Prop :=
  Loads value (read depth record) next

/-- The same for a value that is held as a datum first. -/
def DatumSets (depth : Nat) (read : Datum.Setter σ) (value : Json) (record next : σ) : Prop :=
  Decodes depth value (read record) next

variable {depth : Nat} {fields : List (String × Json)} {record final : σ} {seen all : List Nat}

theorem Loads.object {schema : Schema (Setter σ)} (fills : Fills schema (TextSets depth) fields record [] final all)
    (complete : schema.missing? all = none) : Loads (.object fields) (readRecord schema record (depth + 1)) final := by
  intro layout spaced outer
  have sets : SetsAll (readField schema depth) (written layout (outer + 1) fields) (record, []) (final, all) := by
    generalize ([] : List Nat) = seen at fills
    induction fills with
    | nil => exact .nil
    | cons i named placed fresh set _ ih =>
      exact .cons (readField_sets named placed fresh (set layout spaced (outer + 1))) (ih complete)
    | skip unknown literal _ ih =>
      have skips := readField_skips unknown
        (fun blanks rest spaces => literal.skipped layout (outer + 1) spaces rest) depth
      exact .cons (skips _) (ih complete)
  rw [write_object]
  exact readRecord_object spaced sets complete outer

/-- The entries of a map as they stand in the text of an object. -/
def Holds (depth : Nat) (fields : List (String × Json)) (entries : List (Datum × Datum)) : Prop :=
  ∀ layout : Layout, layout.Spaced → ∀ outer,
    List.Forall₂ (ReadsEntry depth) (written layout outer fields) entries

theorem Holds.nil : Holds depth [] [] :=
  fun _ _ _ => .nil

theorem Holds.cons {key : String} {value : Json} {datum : Datum} {entries : List (Datum × Datum)}
    (loads : Loads value (readDatum depth) datum) (holds : Holds depth fields entries) :
    Holds depth ((key, value) :: fields) ((.text key, datum) :: entries) :=
  fun layout spaced outer => .cons ⟨rfl, loads layout spaced outer⟩ (holds layout spaced outer)

/-- An object whose fields are held is held as their map. -/
theorem Holds.loads {entries : List (Datum × Datum)} (holds : Holds depth fields entries) :
    Loads (.object fields) (readDatum (depth + 1)) (.map entries) := by
  intro layout spaced outer
  rw [write_object]
  exact reads_map spaced (holds layout spaced (outer + 1)) outer

theorem setFields_known {schema : Schema (Datum.Setter σ)} {key : String} {i : Nat} {field : Field (Datum.Setter σ)}
    (named : schema.index? key = some i) (placed : schema.fields[i]? = some field) (fresh : seen.contains i = false)
    (record : σ) (datum : Datum) (entries : List (Datum × Datum)) :
    Datum.setFields schema record seen ((.text key, datum) :: entries) =
      field.read record datum >>= fun next => Datum.setFields schema next (i :: seen) entries := by
  have unseen : ¬seen.contains i = true := by
    rw [fresh]
    exact Bool.false_ne_true
  have index : Datum.fieldIndex schema (.text key) = .ok (some i) := congrArg Except.ok named
  rw [Datum.setFields, index, ok_bind]
  dsimp only
  rw [placed]
  dsimp only
  rw [if_neg unseen]

theorem setFields_unknown {schema : Schema (Datum.Setter σ)} {key : String} (unknown : schema.index? key = none)
    (record : σ) (seen : List Nat) (datum : Datum) (entries : List (Datum × Datum)) :
    Datum.setFields schema record seen ((.text key, datum) :: entries) =
      Datum.setFields schema record seen entries := by
  have index : Datum.fieldIndex schema (.text key) = .ok none := congrArg Except.ok unknown
  rw [Datum.setFields, index, ok_bind]

theorem Fills.entries {schema : Schema (Datum.Setter σ)}
    (fills : Fills schema (DatumSets depth) fields record seen final all) (complete : schema.missing? all = none) :
    ∃ entries, Datum.setFields schema record seen entries = .ok final ∧ Holds depth fields entries := by
  induction fills with
  | nil =>
    refine ⟨[], ?_, .nil⟩
    rw [Datum.setFields, complete]
  | @cons key value fields name required read record next final seen all i named placed fresh set _ ih =>
    obtain ⟨datum, taken, loads⟩ := set
    obtain ⟨entries, takenAll, holds⟩ := ih complete
    refine ⟨(.text key, datum) :: entries, ?_, holds.cons loads⟩
    rw [setFields_known named placed fresh]
    dsimp only
    rw [taken]
    exact takenAll
  | skip unknown literal _ ih =>
    obtain ⟨datum, loads⟩ := literal.loads depth
    obtain ⟨entries, takenAll, holds⟩ := ih complete
    refine ⟨_, ?_, holds.cons loads⟩
    rw [setFields_unknown unknown]
    exact takenAll

theorem Decodes.object {schema : Schema (Datum.Setter σ)}
    (fills : Fills schema (DatumSets depth) fields record [] final all) (complete : schema.missing? all = none)
    (surplus : Surplus) : Decodes (depth + 1) (.object fields) (Datum.record schema surplus record) final := by
  obtain ⟨entries, taken, holds⟩ := fills.entries complete
  exact ⟨.map entries, taken, holds.loads⟩

end Records

end Tablature.Json
