import Tablature.Proofs.Json.Nested

namespace Tablature.Json

variable {α σ : Type}

section Datums

variable {cs : List Char} {c : Char}

theorem reads_scalar {datum : Datum} (solid : isSpace c = false) (notList : c ≠ '[') (notClose : c ≠ ']')
    (notObject : c ≠ '\x7b') (read : ∀ rest, EndsNumber rest → readScalar (c :: cs ++ rest) = .ok (datum, rest))
    (depth : Nat) : Reads (readDatum depth) (c :: cs) datum := by
  rw [readDatum_nested]
  exact readNested_bare solid notList notClose notObject read depth

theorem readScalar_text (s : String) (rest : List Char) :
    readScalar (textChars s ++ rest) = .ok (.text s, rest) := by
  rw [textChars_append, readScalar]
  iterate 5 rw [if_neg (by decide)]
  rw [if_pos rfl, readString_text]
  rfl

theorem reads_text (depth : Nat) (s : String) : Reads (readDatum depth) (textChars s) (.text s) :=
  reads_scalar rfl (by decide) (by decide) (by decide) (fun rest _ => readScalar_text s rest) depth

theorem reads_null (depth : Nat) : Reads (readDatum depth) ['n', 'u', 'l', 'l'] .null :=
  reads_scalar rfl (by decide) (by decide) (by decide) (fun _ _ => rfl) depth

/-- A whole number as it is read: with a sign only if it is below zero. -/
def wholeDatum (i : Int) : Datum :=
  if i < 0 then .int i else .nat i.toNat

/-- The whole numbers that are kept as such. -/
def InRange (i : Int) : Prop :=
  -0x8000000000000000 ≤ i ∧ i < 0x10000000000000000

/-- No other value begins as a number does. -/
theorem number_head (start : c = '-' ∨ isDigit c = true) :
    isSpace c = false ∧ c ≠ '[' ∧ c ≠ ']' ∧ c ≠ '\x7b' ∧ c ≠ 'n' ∧ c ≠ 't' ∧ c ≠ 'f' := by
  rcases start with rfl | digit
  · decide
  · have other {d : Char} (notDigit : isDigit d = false) : c ≠ d := by
      rintro rfl
      rw [digit] at notDigit
      cases notDigit
    have solid : isSpace c = false := by
      rw [Bool.eq_false_iff]
      intro space
      rw [(isSpace_ends space).1] at digit
      cases digit
    exact ⟨solid, other rfl, other rfl, other rfl, other rfl, other rfl, other rfl⟩

/-- The text is that of a number, whatever may follow it. -/
def Spells (text : List Char) (n : Number) : Prop :=
  ∀ rest, EndsNumber rest → number? (text ++ rest) = some (.ok (n, rest))

theorem number?_start {result : Except Fault (Number × List Char)} (number : number? cs = some result) :
    ∃ c rest, cs = c :: rest ∧ (c = '-' ∨ isDigit c = true) := by
  cases cs with
  | nil => cases number
  | cons c rest =>
    refine ⟨c, rest, rfl, ?_⟩
    by_contra other
    obtain ⟨notMinus, notDigit⟩ := not_or.mp other
    rw [number?, if_neg notMinus, if_neg notDigit] at number
    cases number

theorem Spells.start {text : List Char} {n : Number} (spells : Spells text n) :
    ∃ c cs, text = c :: cs ∧ (c = '-' ∨ isDigit c = true) := by
  have start := number?_start (spells [] ends_nil)
  rwa [List.append_nil] at start

theorem readNumber_start {negative : Bool} {result : Number × List Char} (read : readNumber negative cs = .ok result) :
    ∃ c rest, cs = c :: rest ∧ isDigit c = true := by
  unfold readNumber at read
  split at read
  · cases read
  · exact ⟨'0', _, rfl, rfl⟩
  · next c rest _ =>
    refine ⟨c, rest, rfl, ?_⟩
    by_contra notDigit
    rw [if_neg notDigit] at read
    cases read

theorem spells_signed {negative : Bool} {text : List Char} {n : Number}
    (read : ∀ rest, EndsNumber rest → readNumber negative (text ++ rest) = .ok (n, rest)) :
    Spells (if negative then '-' :: text else text) n := by
  intro rest ends
  cases negative with
  | true => exact congrArg some (read rest ends)
  | false =>
    obtain ⟨c, cs, same, digit⟩ := readNumber_start (read rest ends)
    have notMinus : c ≠ '-' := by
      rintro rfl
      cases digit
    rw [if_neg Bool.false_ne_true, ← read rest ends, same, number?, if_neg notMinus, if_pos digit]

theorem spells_int {i : Int} (range : InRange i) : ∃ n, Spells (intChars i) n ∧ n.datum = wholeDatum i := by
  obtain ⟨low, high⟩ := range
  have fits : i.natAbs < significandLimit := by
    change _ < 0x10000000000000000
    omega
  unfold wholeDatum
  by_cases negative : i < 0
  · have whole : ¬(i.natAbs = 0 ∨ 0x8000000000000000 < i.natAbs) := by omega
    have finish : finishInteger true i.natAbs = .int i := by
      rw [finishInteger, if_neg (by decide), if_neg whole]
      congr 1
      omega
    have spells := spells_signed fun rest ends => readNumber_digits true fits ends
    rw [finish] at spells
    rw [intChars, if_pos negative, if_pos negative]
    exact ⟨.int i, spells, rfl⟩
  · have spells := spells_signed fun rest ends => readNumber_digits false fits ends
    rw [intChars, if_neg negative, if_neg negative]
    refine ⟨.nat i.natAbs, spells, ?_⟩
    change Datum.nat _ = _
    congr 1
    omega

theorem readScalar_number {cs : List Char} {result : Except Fault (Number × List Char)}
    (number : number? cs = some result) : readScalar cs = (fun (n, cs) => (n.datum, cs)) <$> result := by
  cases cs with
  | nil => cases number
  | cons c cs =>
    by_cases minus : c = '-'
    · subst minus
      cases number
      rfl
    · by_cases digit : isDigit c = true
      · obtain ⟨_, _, _, _, notN, notT, notF⟩ := number_head (Or.inr digit)
        rw [number?, if_neg minus, if_pos digit] at number
        cases number
        rw [readScalar, if_neg notN, if_neg notT, if_neg notF, if_neg minus, if_pos digit]
      · rw [number?, if_neg minus, if_neg digit] at number
        cases number

theorem Spells.reads {text : List Char} {n : Number} (spells : Spells text n) (depth : Nat) :
    Reads (readDatum depth) text n.datum := by
  obtain ⟨c, cs, rfl, start⟩ := spells.start
  obtain ⟨solid, notList, notClose, notObject, _⟩ := number_head start
  refine reads_scalar solid notList notClose notObject (fun rest ends => ?_) depth
  rw [readScalar_number (spells rest ends)]
  rfl

theorem reads_int (depth : Nat) {i : Int} (range : InRange i) :
    Reads (readDatum depth) (intChars i) (wholeDatum i) := by
  obtain ⟨n, spells, datum⟩ := spells_int range
  rw [← datum]
  exact spells.reads depth

variable {layout : Layout} (spaced : layout.Spaced)

include spaced

theorem reads_list {depth : Nat} {texts : List (List Char)} {data : List Datum}
    (each : List.Forall₂ (Reads (readDatum depth)) texts data) (outer : Nat) :
    Reads (readDatum (depth + 1)) ('[' :: interior ']' layout outer texts) (.list data) := by
  rw [readDatum_nested] at each ⊢
  exact readNested_items spaced each outer

/-- The entry of a map is read from the field. -/
def ReadsEntry (depth : Nat) (field : String × List Char) (entry : Datum × Datum) : Prop :=
  entry.1 = .text field.1 ∧ Reads (readDatum depth) field.2 entry.2

theorem reads_map {depth : Nat} {fields : List (String × List Char)} {entries : List (Datum × Datum)}
    (each : List.Forall₂ (ReadsEntry depth) fields entries) (outer : Nat) :
    Reads (readDatum (depth + 1)) ('\x7b' :: interior '\x7d' layout outer (fields.map (fieldChars layout)))
      (.map entries) := by
  change List.Forall₂ (ReadsField (readDatum depth)) fields entries at each
  rw [readDatum_nested] at each ⊢
  exact readNested_fields spaced each outer

end Datums

section Typed

variable {blanks cs : List Char} {c : Char}

theorem readText_text (s : String) : Reads readText (textChars s) s where
  opens := opens_solid rfl (by decide)
  reads := by
    intro blanks rest spaces _
    rw [readText, List.append_assoc, textChars_append, skipSpace_to spaces rfl]
    exact readString_text s rest

/-- A number where one of a kind is expected. -/
theorem Spells.readsAs {text : List Char} {n : Number} (spells : Spells text n) {take : Datum → Except Mismatch α}
    {a : α} (taken : take n.datum = .ok a) (expected : String) : Reads (readNumberAs take expected) text a := by
  obtain ⟨c, cs, rfl, start⟩ := spells.start
  obtain ⟨solid, _, notClose, _⟩ := number_head start
  refine ⟨⟨c, cs, rfl, solid, notClose⟩, fun blanks rest spaces ends => ?_⟩
  have number := spells rest ends
  rw [List.cons_append] at number
  rw [readNumberAs, List.append_assoc, List.cons_append, skipSpace_to spaces solid]
  dsimp only
  rw [number]
  dsimp only
  rw [ok_bind]
  dsimp only
  rw [taken]
  rfl

theorem readNumberAs_int {take : Datum → Except Mismatch α} {i : Int} {a : α} (range : InRange i)
    (taken : take (wholeDatum i) = .ok a) (expected : String) : Reads (readNumberAs take expected) (intChars i) a := by
  obtain ⟨n, spells, datum⟩ := spells_int range
  exact spells.readsAs (by rw [datum, taken]) expected

theorem wholeDatum_nat (n : Nat) : wholeDatum n = .nat n := by
  rw [wholeDatum, if_neg (by omega), Int.toNat_natCast]

theorem count_nat (n : UInt32) : Datum.count (.nat n.toNat) = .ok n := by
  rw [Datum.count, Datum.natBelow, if_pos n.toNat_lt]
  change Except.ok (UInt32.ofNat n.toNat) = _
  rw [UInt32.ofNat_toNat]

theorem readCount_nat (n : UInt32) : Reads readCount (intChars n.toNat) n := by
  have below := n.toNat_lt
  refine readNumberAs_int ⟨by omega, by omega⟩ ?_ "u32"
  rw [wholeDatum_nat, count_nat]

theorem readTempo_null : Reads readTempo ['n', 'u', 'l', 'l'] none where
  opens := opens_solid rfl (by decide)
  reads := by
    intro blanks rest spaces _
    rw [readTempo, List.append_assoc, List.cons_append, skipSpace_to spaces rfl]
    rfl

theorem Spells.readsTempo {text : List Char} {n : Number} (spells : Spells text n) {bpm : Float}
    (taken : Datum.number n.datum = .ok bpm) : Reads readTempo text (storedTempo bpm) := by
  have number := spells.readsAs taken "f64"
  obtain ⟨c, cs, rfl, start⟩ := spells.start
  obtain ⟨solid, _, _, _, notNull, _⟩ := number_head start
  refine ⟨number.opens, fun blanks rest spaces ends => ?_⟩
  have read := number.bare ends
  rw [List.cons_append] at read
  rw [readTempo, List.append_assoc, List.cons_append, skipSpace_to spaces solid]
  split
  · next null => exact absurd (List.cons.inj null).1 notNull
  · rw [read]
    rfl

theorem readTempo_int {i : Int} (range : InRange i) {bpm : Float}
    (taken : Datum.number (wholeDatum i) = .ok bpm) : Reads readTempo (intChars i) (storedTempo bpm) := by
  obtain ⟨n, spells, datum⟩ := spells_int range
  exact spells.readsTempo (by rw [datum, taken])

variable {layout : Layout} (spaced : layout.Spaced)

include spaced

theorem readListOf_list {item : Nat → List Char → Except Fault (α × List Char)} {depth : Nat}
    {texts : List (List Char)} {values : List α} (each : List.Forall₂ (Reads (item depth)) texts values) (outer : Nat) :
    Reads (readListOf item (depth + 1)) ('[' :: interior ']' layout outer texts) values where
  opens := opens_solid rfl (by decide)
  reads := by
    intro blanks rest spaces _
    rw [readListOf, List.append_assoc, List.cons_append, skipSpace_to spaces rfl]
    exact readItems_interior spaced each outer rest

omit spaced in
/-- A field that a record knows and has not yet seen. -/
theorem readField_sets {schema : Schema (Setter σ)} {depth i : Nat} {field : Field (Setter σ)} {key : String}
    {text : List Char} {record next : σ} {seen : List Nat} (named : schema.index? key = some i)
    (placed : schema.fields[i]? = some field) (fresh : seen.contains i = false)
    (reads : Reads (field.read depth record) text next) :
    Sets (readField schema depth) key text (record, seen) (next, i :: seen) := by
  intro blanks rest spaces ends
  rw [readField, named]
  dsimp only
  rw [placed]
  dsimp only
  rw [if_neg (by rw [fresh]; exact Bool.false_ne_true), List.cons_append, List.cons_append, readColon_colon, ok_bind,
    reads.reads blanks rest spaces ends]
  rfl

omit spaced in
/-- A field that a record does not know. -/
theorem readField_skips {schema : Schema (Setter σ)} {key : String} {text : List Char}
    (unknown : schema.index? key = none)
    (skipped : ∀ blanks rest, AllSpace blanks → skipValue (blanks ++ text ++ rest) = .ok rest) (depth : Nat)
    (state : σ × List Nat) : Sets (readField schema depth) key text state state := by
  intro blanks rest spaces _
  rw [readField, unknown]
  dsimp only
  rw [List.cons_append, List.cons_append, readColon_colon, ok_bind, skipped blanks rest spaces]
  rfl

omit spaced in
theorem readRecord_brace (schema : Schema (Setter σ)) (default : σ) (depth : Nat) (spaces : AllSpace blanks) :
    readRecord schema default (depth + 1) (blanks ++ '\x7b' :: cs) =
      readFields (readField schema depth) (cs.length + 1) true (default, []) cs >>= fun result =>
        match schema.missing? result.1.2 with
        | some field => .error (.here (.mismatch (.missingField field.name)) result.2)
        | none => .ok (result.1.1, result.2) := by
  rw [readRecord, skipSpace_to spaces rfl]
  rfl

theorem readRecord_object {schema : Schema (Setter σ)} {default record : σ} {depth : Nat} {seen : List Nat}
    {fields : List (String × List Char)} (sets : SetsAll (readField schema depth) fields (default, []) (record, seen))
    (complete : schema.missing? seen = none) (outer : Nat) :
    Reads (readRecord schema default (depth + 1))
      ('\x7b' :: interior '\x7d' layout outer (fields.map (fieldChars layout))) record where
  opens := opens_solid rfl (by decide)
  reads := by
    intro blanks rest spaces _
    rw [List.append_assoc, List.cons_append, readRecord_brace schema default depth spaces,
      readFields_interior spaced sets, ok_bind]
    dsimp only
    rw [complete]

end Typed

end Tablature.Json
