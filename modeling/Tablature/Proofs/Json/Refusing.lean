import Tablature.Proofs.Json.Decoding

namespace Tablature.Json

variable {α σ : Type}

/-- The reader finds fault with the text, whatever may follow it. -/
structure Refuses (read : List Char → Except Fault (α × List Char)) (text : List Char) : Prop where
  opens : Opens text
  refuses : ∀ blanks rest, AllSpace blanks → EndsNumber rest → ∃ fault, read (blanks ++ text ++ rest) = .error fault

theorem Refuses.bare {read : List Char → Except Fault (α × List Char)} {text : List Char} (refuses : Refuses read text)
    {rest : List Char} (ends : EndsNumber rest) : ∃ fault, read (text ++ rest) = .error fault :=
  refuses.refuses [] rest .nil ends

section Items

variable {item : List Char → Except Fault (α × List Char)} {before close text rest : List Char}

/-- One of these texts is refused, and those in front of it are read. -/
inductive ItemsStop (item : List Char → Except Fault (α × List Char)) : List (List Char) → Prop
  | here {text texts} (refuses : Refuses item text) : ItemsStop item (text :: texts)
  | later {text texts a} (reads : Reads item text a) (stop : ItemsStop item texts) : ItemsStop item (text :: texts)

theorem readItems_fault {first : Bool} {cs : List Char} {fault : Fault} (next : nextItem first cs = .ok (some text, []))
    (read : item text = .error fault) (fuel : Nat) (done : List α) :
    ∃ fault, readItems item (fuel + 1) first done cs = .error fault := by
  rw [readItems, next, ok_bind]
  dsimp only
  rw [read]
  exact ⟨_, rfl⟩

theorem readItems_joined_stop {texts : List (List Char)} (stop : ItemsStop item texts) (spaces : AllSpace before)
    (closing : AllSpace close) (rest : List Char) (done : List α) {fuel : Nat} (enough : texts.length < fuel) :
    ∃ fault, readItems item fuel false done (joined before texts ++ close ++ ']' :: rest) = .error fault := by
  induction stop generalizing done fuel with
  | @here text texts refuses =>
    obtain ⟨fuel, rfl⟩ := Nat.exists_eq_succ_of_ne_zero (Nat.ne_of_gt (Nat.zero_lt_of_lt enough))
    have ends := ends_joined before (ends_spaces closing (ends_bracket rest)) texts
    have next := nextItem_comma spaces refuses.opens (joined before texts ++ (close ++ ']' :: rest))
    obtain ⟨fault, read⟩ := refuses.bare ends
    rw [joined, List.append_assoc, List.append_assoc]
    exact readItems_fault next read fuel done
  | @later text texts a reads _ ih =>
    obtain ⟨fuel, rfl⟩ := Nat.exists_eq_succ_of_ne_zero (Nat.ne_of_gt (Nat.zero_lt_of_lt enough))
    have ends := ends_joined before (ends_spaces closing (ends_bracket rest)) texts
    have later := ih (a :: done) (Nat.lt_of_succ_lt_succ enough)
    rw [List.append_assoc] at later
    have next := nextItem_comma spaces reads.opens (joined before texts ++ (close ++ ']' :: rest))
    rw [joined, List.append_assoc, List.append_assoc, readItems_item next (reads.bare ends)]
    exact later

variable {layout : Layout} (spaced : layout.Spaced)

include spaced

theorem readItems_interior_stop {texts : List (List Char)} (stop : ItemsStop item texts) (depth : Nat)
    (rest : List Char) :
    ∃ fault, readItems item ((interior ']' layout depth texts ++ rest).length + 1) true []
      (interior ']' layout depth texts ++ rest) = .error fault := by
  have enough : texts.length < (interior ']' layout depth texts ++ rest).length + 1 := by
    have parts := length_interior ']' layout depth texts
    rw [List.length_append]
    omega
  generalize (interior ']' layout depth texts ++ rest).length = fuel at enough
  have closing := spaced.beforeClose depth
  have ends (texts : List (List Char)) :=
    ends_joined (layout.beforeItem depth) (ends_spaces closing (ends_bracket rest)) texts
  cases stop with
  | @here text texts refuses =>
    have next := nextItem_first (spaced.beforeItem depth) refuses.opens
      (joined (layout.beforeItem depth) texts ++ (layout.beforeClose depth ++ ']' :: rest))
    obtain ⟨fault, read⟩ := refuses.bare (ends texts)
    rw [interior, List.append_assoc, List.append_assoc, List.append_assoc, List.singleton_append]
    exact readItems_fault next read fuel []
  | @later text texts a reads stop =>
    have later := readItems_joined_stop stop (spaced.beforeItem depth) closing rest [a]
      (Nat.lt_of_succ_lt_succ enough)
    rw [List.append_assoc] at later
    have next := nextItem_first (spaced.beforeItem depth) reads.opens
      (joined (layout.beforeItem depth) texts ++ (layout.beforeClose depth ++ ']' :: rest))
    rw [interior, List.append_assoc, List.append_assoc, List.append_assoc, List.singleton_append,
      readItems_item next (reads.bare (ends texts))]
    exact later

end Items

section Fields

variable {field : σ → String → List Char → Except Fault (σ × List Char)} {text rest : List Char}

/-- The value of a field is refused where its colon stands. -/
def Faults (field : σ → String → List Char → Except Fault (σ × List Char)) (key : String) (text : List Char)
    (state : σ) : Prop :=
  ∀ blanks rest, AllSpace blanks → EndsNumber rest →
    ∃ fault, field state key (':' :: blanks ++ text ++ rest) = .error fault

/-- One of these fields is refused, and those in front of it are taken. -/
inductive FieldsStop (field : σ → String → List Char → Except Fault (σ × List Char)) :
    List (String × List Char) → σ → Prop
  | here {key text fields state} (faults : Faults field key text state) : FieldsStop field ((key, text) :: fields) state
  | later {key text fields state next} (sets : Sets field key text state next) (stop : FieldsStop field fields next) :
      FieldsStop field ((key, text) :: fields) state

theorem readFields_fault {first : Bool} {cs : List Char} {key : String} {state : σ} {fault : Fault}
    (isKey : nextKey first cs = .ok (some key, text)) (read : field state key text = .error fault) (fuel : Nat) :
    ∃ fault, readFields field (fuel + 1) first state cs = .error fault := by
  rw [readFields, isKey, ok_bind]
  dsimp only
  rw [read]
  exact ⟨_, rfl⟩

variable {layout : Layout} (spaced : layout.Spaced)

include spaced

theorem readFields_joined_stop {fields : List (String × List Char)} {state : σ} (stop : FieldsStop field fields state)
    (depth : Nat) (rest : List Char) {fuel : Nat} (enough : fields.length < fuel) :
    ∃ fault, readFields field fuel false state (joined (layout.beforeItem depth) (fields.map (fieldChars layout)) ++
      layout.beforeClose depth ++ '\x7d' :: rest) = .error fault := by
  have closing := spaced.beforeClose depth
  have ends (fields : List (String × List Char)) := ends_joined (layout.beforeItem depth)
    (ends_spaces closing (ends_brace rest)) (fields.map (fieldChars layout))
  have isKey (key : String) (text : List Char) (fields : List (String × List Char)) :=
    nextKey_comma (spaced.beforeItem depth) key (':' :: layout.afterColon ++ text ++
      (joined (layout.beforeItem depth) (fields.map (fieldChars layout)) ++
        (layout.beforeClose depth ++ '\x7d' :: rest)))
  induction stop generalizing fuel with
  | @here key text fields state faults =>
    obtain ⟨fuel, rfl⟩ := Nat.exists_eq_succ_of_ne_zero (Nat.ne_of_gt (Nat.zero_lt_of_lt enough))
    obtain ⟨fault, read⟩ := faults layout.afterColon _ spaced.afterColon (ends fields)
    have stops := readFields_fault (isKey key text fields) read fuel
    simp only [List.append_assoc, List.cons_append] at stops
    simp only [List.map_cons, joined, fieldChars, List.append_assoc, List.cons_append]
    exact stops
  | @later key text fields state next sets _ ih =>
    obtain ⟨fuel, rfl⟩ := Nat.exists_eq_succ_of_ne_zero (Nat.ne_of_gt (Nat.zero_lt_of_lt enough))
    have later := ih (Nat.lt_of_succ_lt_succ enough)
    rw [List.append_assoc, ← readFields_field (isKey key text fields) (sets layout.afterColon _ spaced.afterColon
      (ends fields))] at later
    simp only [List.append_assoc, List.cons_append] at later
    simp only [List.map_cons, joined, fieldChars, List.append_assoc, List.cons_append]
    exact later

theorem readFields_interior_stop {fields : List (String × List Char)} {state : σ}
    (stop : FieldsStop field fields state) (depth : Nat) (rest : List Char) :
    ∃ fault, readFields field
      ((interior '\x7d' layout depth (fields.map (fieldChars layout)) ++ rest).length + 1) true state
      (interior '\x7d' layout depth (fields.map (fieldChars layout)) ++ rest) = .error fault := by
  have enough : fields.length <
      (interior '\x7d' layout depth (fields.map (fieldChars layout)) ++ rest).length + 1 := by
    have parts := length_interior '\x7d' layout depth (fields.map (fieldChars layout))
    rw [List.length_map] at parts
    rw [List.length_append]
    omega
  generalize (interior '\x7d' layout depth (fields.map (fieldChars layout)) ++ rest).length = fuel at enough
  have closing := spaced.beforeClose depth
  have ends (fields : List (String × List Char)) := ends_joined (layout.beforeItem depth)
    (ends_spaces closing (ends_brace rest)) (fields.map (fieldChars layout))
  have isKey (key : String) (text : List Char) (fields : List (String × List Char)) :=
    nextKey_first (spaced.beforeItem depth) key (':' :: layout.afterColon ++ text ++
      (joined (layout.beforeItem depth) (fields.map (fieldChars layout)) ++
        (layout.beforeClose depth ++ '\x7d' :: rest)))
  cases stop with
  | @here key text fields state faults =>
    obtain ⟨fault, read⟩ := faults layout.afterColon _ spaced.afterColon (ends fields)
    have stops := readFields_fault (isKey key text fields) read fuel
    simp only [List.append_assoc, List.cons_append] at stops
    simp only [List.map_cons, interior, fieldChars, List.append_assoc, List.cons_append, List.nil_append]
    exact stops
  | @later key text fields state next sets stop =>
    have later := readFields_joined_stop spaced stop depth rest (Nat.lt_of_succ_lt_succ enough)
    rw [List.append_assoc, ← readFields_field (isKey key text fields) (sets layout.afterColon _ spaced.afterColon
      (ends fields))] at later
    simp only [List.append_assoc, List.cons_append] at later
    simp only [List.map_cons, interior, fieldChars, List.append_assoc, List.cons_append, List.nil_append]
    exact later

end Fields

/-- The value, written in any layout, is refused. -/
def Fails (value : Json) (read : List Char → Except Fault (α × List Char)) : Prop :=
  ∀ layout : Layout, layout.Spaced → ∀ outer, Refuses read (write layout outer value)

/-- The value is read as a datum, but that cannot be taken. -/
def Misfits (depth : Nat) (value : Json) (take : Datum → Except Mismatch α) : Prop :=
  ∃ datum, (∃ mismatch, take datum = .error mismatch) ∧ Loads value (readDatum depth) datum

section Lists

/-- One of these values fails, and those in front of it do not. -/
inductive FailsAmong (item : List Char → Except Fault (α × List Char)) : List Json → Prop
  | here {value values} (fails : Fails value item) : FailsAmong item (value :: values)
  | later {value values a} (loads : Loads value item a) (among : FailsAmong item values) :
      FailsAmong item (value :: values)

theorem readListOf_bracket (item : Nat → List Char → Except Fault (α × List Char)) (depth : Nat) {blanks : List Char}
    (spaces : AllSpace blanks) (cs : List Char) :
    readListOf item (depth + 1) (blanks ++ '[' :: cs) = readItems (item depth) (cs.length + 1) true [] cs := by
  rw [readListOf, skipSpace_to spaces rfl]
  rfl

theorem FailsAmong.fails {item : Nat → List Char → Except Fault (α × List Char)} {depth : Nat} {values : List Json}
    (among : FailsAmong (item depth) values) : Fails (.list values) (readListOf item (depth + 1)) := by
  intro layout spaced outer
  have stop : ItemsStop (item depth) (values.map (write layout (outer + 1))) := by
    induction among with
    | here fails => exact .here (fails layout spaced (outer + 1))
    | later loads _ ih => exact .later (loads layout spaced (outer + 1)) ih
  rw [write_list]
  refine ⟨opens_solid rfl (by decide), fun blanks rest spaces _ => ?_⟩
  rw [List.append_assoc, List.cons_append, readListOf_bracket item depth spaces]
  exact readItems_interior_stop spaced stop outer rest

end Lists

section Records

/-- Reading these fields of an object comes to a fault: one of them is refused, and those in front of it are taken,
or they end before all that are required were there. -/
inductive Breaks (schema : Schema ρ) (sets : ρ → Json → σ → σ → Prop) (fails : ρ → Json → Prop) :
    List (String × Json) → σ → List Nat → Prop
  | short {record seen field} (missing : schema.missing? seen = some field) : Breaks schema sets fails [] record seen
  | here {key value fields field record seen} (i : Nat) (named : schema.index? key = some i)
      (placed : schema.fields[i]? = some field) (fresh : seen.contains i = false) (refused : fails field.read value) :
      Breaks schema sets fails ((key, value) :: fields) record seen
  | later {key value fields field record next seen} (i : Nat) (named : schema.index? key = some i)
      (placed : schema.fields[i]? = some field) (fresh : seen.contains i = false)
      (set : sets field.read value record next) (rest : Breaks schema sets fails fields next (i :: seen)) :
      Breaks schema sets fails ((key, value) :: fields) record seen
  | skip {key value fields record seen} (unknown : schema.index? key = none) (literal : IsLiteral value)
      (rest : Breaks schema sets fails fields record seen) :
      Breaks schema sets fails ((key, value) :: fields) record seen

/-- Fields that are taken but lack a required one. -/
theorem Fills.breaks {schema : Schema ρ} {sets : ρ → Json → σ → σ → Prop} {fails : ρ → Json → Prop}
    {fields : List (String × Json)} {record final : σ} {seen all : List Nat}
    (fills : Fills schema sets fields record seen final all) {field : Field ρ}
    (missing : schema.missing? all = some field) : Breaks schema sets fails fields record seen := by
  induction fills with
  | nil => exact .short missing
  | cons i named placed fresh set _ ih => exact .later i named placed fresh set (ih missing)
  | skip unknown literal _ ih => exact .skip unknown literal (ih missing)

def TextFails (depth : Nat) (read : Setter σ) (value : Json) : Prop :=
  ∀ record, Fails value (read depth record)

def DatumFails (depth : Nat) (read : Datum.Setter σ) (value : Json) : Prop :=
  ∀ record, Misfits depth value (read record)

theorem readField_faults {schema : Schema (Setter σ)} {depth i : Nat} {field : Field (Setter σ)} {key : String}
    {text : List Char} {record : σ} {seen : List Nat} (named : schema.index? key = some i)
    (placed : schema.fields[i]? = some field) (fresh : seen.contains i = false)
    (refuses : Refuses (field.read depth record) text) :
    Faults (readField schema depth) key text (record, seen) := by
  intro blanks rest spaces ends
  obtain ⟨fault, refused⟩ := refuses.refuses blanks rest spaces ends
  rw [readField, named]
  dsimp only
  rw [placed]
  dsimp only
  rw [if_neg (by rw [fresh]; exact Bool.false_ne_true), List.cons_append, List.cons_append, readColon_colon, ok_bind,
    refused]
  exact ⟨_, rfl⟩

variable {depth : Nat} {fields : List (String × Json)} {record : σ} {seen : List Nat}

/-- A break in an object is met at one of its fields, or at its end. -/
theorem Breaks.met {schema : Schema (Setter σ)}
    (breaks : Breaks schema (TextSets depth) (TextFails depth) fields record seen) {layout : Layout}
    (spaced : layout.Spaced) (outer : Nat) :
    FieldsStop (readField schema depth) (written layout outer fields) (record, seen) ∨
      ∃ final all field, SetsAll (readField schema depth) (written layout outer fields) (record, seen) (final, all) ∧
        schema.missing? all = some field := by
  have onward {key : String} {value : Json} {fields : List (String × Json)} {state next : σ × List Nat}
      (sets : Sets (readField schema depth) key (write layout outer value) state next)
      (rest : FieldsStop (readField schema depth) (written layout outer fields) next ∨
        ∃ final all field, SetsAll (readField schema depth) (written layout outer fields) next (final, all) ∧
          schema.missing? all = some field) :
      FieldsStop (readField schema depth) (written layout outer ((key, value) :: fields)) state ∨
        ∃ final all field, SetsAll (readField schema depth) (written layout outer ((key, value) :: fields)) state
          (final, all) ∧ schema.missing? all = some field :=
    rest.imp (.later sets) fun ⟨final, all, field, setsAll, missing⟩ =>
      ⟨final, all, field, .cons sets setsAll, missing⟩
  induction breaks with
  | short missing => exact Or.inr ⟨_, _, _, .nil, missing⟩
  | here i named placed fresh refused =>
    exact Or.inl (.here (readField_faults named placed fresh (refused _ layout spaced outer)))
  | later i named placed fresh set _ ih =>
    exact onward (readField_sets named placed fresh (set layout spaced outer)) ih
  | skip unknown literal _ ih =>
    have skips := readField_skips unknown (fun blanks rest spaces => literal.skipped layout outer spaces rest) depth
    exact onward (skips _) ih

theorem Breaks.fails {schema : Schema (Setter σ)}
    (breaks : Breaks schema (TextSets depth) (TextFails depth) fields record []) :
    Fails (.object fields) (readRecord schema record (depth + 1)) := by
  intro layout spaced outer
  rw [write_object]
  refine ⟨opens_solid rfl (by decide), fun blanks rest spaces _ => ?_⟩
  rw [List.append_assoc, List.cons_append, readRecord_brace schema record depth spaces]
  rcases breaks.met spaced (outer + 1) with stop | ⟨final, all, field, sets, missing⟩
  · obtain ⟨fault, stops⟩ := readFields_interior_stop spaced stop outer rest
    rw [stops]
    exact ⟨fault, rfl⟩
  · rw [readFields_interior spaced sets, ok_bind]
    dsimp only
    rw [missing]
    exact ⟨_, rfl⟩

/-- The value can be held as a datum, whether that can be taken or not. -/
def Readable (depth : Nat) (value : Json) : Prop :=
  ∃ datum, Loads value (readDatum depth) datum

theorem holds_of_readable (readable : ∀ field ∈ fields, Readable depth field.2) :
    ∃ entries, Holds depth fields entries := by
  induction fields with
  | nil => exact ⟨[], .nil⟩
  | cons field fields ih =>
    obtain ⟨⟨datum, loads⟩, others⟩ := List.forall_mem_cons.mp readable
    obtain ⟨entries, holds⟩ := ih others
    exact ⟨_, holds.cons loads⟩

theorem Breaks.entries {schema : Schema (Datum.Setter σ)}
    (breaks : Breaks schema (DatumSets depth) (DatumFails depth) fields record seen)
    (readable : ∀ field ∈ fields, Readable depth field.2) :
    ∃ entries, (∃ mismatch, Datum.setFields schema record seen entries = .error mismatch) ∧
      Holds depth fields entries := by
  induction breaks with
  | short missing =>
    refine ⟨[], ?_, .nil⟩
    rw [Datum.setFields, missing]
    exact ⟨_, rfl⟩
  | here i named placed fresh refused =>
    obtain ⟨datum, ⟨mismatch, refuses⟩, loads⟩ := refused _
    obtain ⟨entries, holds⟩ := holds_of_readable (List.forall_mem_cons.mp readable).2
    refine ⟨_, ?_, holds.cons loads⟩
    rw [setFields_known named placed fresh, refuses]
    exact ⟨_, rfl⟩
  | later i named placed fresh set _ ih =>
    obtain ⟨datum, taken, loads⟩ := set
    obtain ⟨entries, stops, holds⟩ := ih (List.forall_mem_cons.mp readable).2
    refine ⟨_, ?_, holds.cons loads⟩
    rw [setFields_known named placed fresh, taken]
    exact stops
  | skip unknown literal _ ih =>
    obtain ⟨datum, loads⟩ := literal.loads depth
    obtain ⟨entries, stops, holds⟩ := ih (List.forall_mem_cons.mp readable).2
    refine ⟨_, ?_, holds.cons loads⟩
    rw [setFields_unknown unknown]
    exact stops

theorem Breaks.misfits {schema : Schema (Datum.Setter σ)}
    (breaks : Breaks schema (DatumSets depth) (DatumFails depth) fields record [])
    (readable : ∀ field ∈ fields, Readable depth field.2) (surplus : Surplus) :
    Misfits (depth + 1) (.object fields) (Datum.record schema surplus record) := by
  obtain ⟨entries, stops, holds⟩ := breaks.entries readable
  exact ⟨.map entries, stops, holds.loads⟩

end Records

end Tablature.Json
