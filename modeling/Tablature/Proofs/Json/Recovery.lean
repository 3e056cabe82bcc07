import Tablature.Proofs.Json.Decoding

namespace Tablature.Json

mutual

/-- What a value is read as, if it has no fractional numbers. -/
def datum : Json → Datum
  | .null => .null
  | .bool b => .bool b
  | .int i => wholeDatum i
  | .float x => .float x
  | .text s => .text s
  | .list items => .list (itemData items)
  | .object fields => .map (fieldData fields)

def itemData : List Json → List Datum
  | [] => []
  | item :: items => item.datum :: itemData items

def fieldData : List (String × Json) → List (Datum × Datum)
  | [] => []
  | (key, value) :: fields => (.text key, value.datum) :: fieldData fields

end

theorem itemData_eq (items : List Json) : itemData items = items.map datum := by
  induction items with
  | nil => rfl
  | cons item items ih => rw [itemData, ih, List.map_cons]

theorem fieldData_eq (fields : List (String × Json)) :
    fieldData fields = fields.map fun field => (.text field.1, field.2.datum) := by
  induction fields with
  | nil => rfl
  | cons field fields ih => rw [fieldData, ih, List.map_cons]

/-- A value without parts; of numbers, a whole one that is kept. -/
inductive Leaf (kept : Int → Prop) : Json → Prop
  | null : Leaf kept .null
  | bool (b : Bool) : Leaf kept (.bool b)
  | text (s : String) : Leaf kept (.text s)
  | int {i : Int} (keeps : kept i) : Leaf kept (.int i)

/-- A value nested within a depth, without fractional numbers. -/
inductive Whole (kept : Int → Prop) : Nat → Json → Prop
  | leaf {depth : Nat} {value : Json} (leaf : Leaf kept value) : Whole kept depth value
  | list {depth : Nat} {items : List Json} (each : ∀ item ∈ items, Whole kept depth item) :
      Whole kept (depth + 1) (.list items)
  | object {depth : Nat} {fields : List (String × Json)} (each : ∀ field ∈ fields, Whole kept depth field.2) :
      Whole kept (depth + 1) (.object fields)

/-- The reader takes the values without parts for what they are. -/
def Recovers (scalar : List Char → Except Fault (Datum × List Char)) (kept : Int → Prop) : Prop :=
  ∀ value, Leaf kept value → ∀ layout outer rest, EndsNumber rest →
    scalar (write layout outer value ++ rest) = .ok (value.datum, rest)

section Leaves

variable {kept : Int → Prop} {value : Json}

theorem intChars_start (i : Int) : ∃ c cs, intChars i = c :: cs ∧ (c = '-' ∨ isDigit c = true) := by
  unfold intChars
  split
  · exact ⟨'-', _, rfl, Or.inl rfl⟩
  · obtain ⟨c, cs, same⟩ := List.exists_cons_of_ne_nil (Nat.toDigits_ne_nil (n := i.natAbs) (b := 10))
    refine ⟨c, cs, same, Or.inr (isDigit_toDigits (n := i.natAbs) ?_)⟩
    rw [same]
    exact List.mem_cons_self

theorem Leaf.start (leaf : Leaf kept value) (layout : Layout) (outer : Nat) :
    ∃ c cs, write layout outer value = c :: cs ∧ isSpace c = false ∧ c ≠ '[' ∧ c ≠ ']' ∧ c ≠ '\x7b' := by
  cases leaf with
  | null => exact ⟨_, _, by rw [write], by decide⟩
  | bool b => cases b <;> exact ⟨_, _, by rw [write], by decide⟩
  | text s => exact ⟨'"', _, by rw [write]; rfl, by decide⟩
  | @int i _ =>
    obtain ⟨c, cs, same, start⟩ := intChars_start i
    obtain ⟨solid, notList, notClose, notObject, _⟩ := number_head start
    exact ⟨c, cs, by rw [write, same], solid, notList, notClose, notObject⟩

theorem Leaf.loads {scalar : List Char → Except Fault (Datum × List Char)} (leaf : Leaf kept value)
    (recovers : Recovers scalar kept) (depth : Nat) : Loads value (readNested scalar depth) value.datum := by
  intro layout _ outer
  obtain ⟨c, cs, same, solid, notList, notClose, notObject⟩ := leaf.start layout outer
  have read := recovers value leaf layout outer
  rw [same] at read ⊢
  exact readNested_bare solid notList notClose notObject read depth

end Leaves

/-- A value without fractional numbers is read back whatever the layout, given a reader of the ones without
parts. -/
theorem Whole.loads {scalar : List Char → Except Fault (Datum × List Char)} {kept : Int → Prop}
    (recovers : Recovers scalar kept) {depth : Nat} {value : Json} (whole : Whole kept depth value) :
    Loads value (readNested scalar depth) value.datum := by
  induction whole with
  | leaf leaf => exact leaf.loads recovers _
  | @list depth items _ ih =>
    intro layout spaced outer
    rw [write_list, datum, itemData_eq]
    refine readNested_items spaced ?_ outer
    rw [List.forall₂_map_left_iff, List.forall₂_map_right_iff, List.forall₂_same]
    exact fun item member => ih item member layout spaced (outer + 1)
  | @object depth fields _ ih =>
    intro layout spaced outer
    rw [write_object, datum, fieldData_eq]
    refine readNested_fields spaced ?_ outer
    rw [written, List.forall₂_map_left_iff, List.forall₂_map_right_iff, List.forall₂_same]
    exact fun field member => ⟨rfl, ih field member layout spaced (outer + 1)⟩

theorem Whole.recovered {scalar : List Char → Except Fault (Datum × List Char)} {kept : Int → Prop}
    (recovers : Recovers scalar kept) {depth : Nat} {value : Json} (whole : Whole kept depth value) :
    readWhole (readNested scalar depth) value.compact.toList = .ok value.datum := by
  have read := ((whole.loads recovers) .compact Layout.compact_spaced 0).bare ends_nil
  rw [List.append_nil] at read
  rw [compact, String.toList_ofList, readWhole, read]
  rfl

theorem readScalar_recovers : Recovers readScalar InRange := by
  intro value leaf layout outer rest ends
  cases leaf with
  | null =>
    rw [write]
    rfl
  | bool b => cases b <;> (rw [write]; rfl)
  | text s =>
    rw [write]
    exact readScalar_text s rest
  | @int i range =>
    obtain ⟨n, spells, same⟩ := spells_int range
    rw [write, readScalar_number (spells rest ends), datum, ← same]
    rfl

section Unbounded

/-- A number goes on with a fraction or an exponent. -/
def continues : List Char → Bool
  | [] => false
  | c :: _ => c = '.' || isExponentMark c

/-- The whole number that a text begins with. None has a zero in front, a fraction or an exponent. -/
def wholeNumber? (cs : List Char) : Option (Nat × List Char) :=
  let rest := cs.dropWhile isDigit
  match cs.takeWhile isDigit with
  | [] => none
  | d :: ds => if d = '0' && !ds.isEmpty || continues rest then none else some (digitsValue (d :: ds), rest)

/-- A scalar as `readScalar` takes it, with whole numbers of any size. -/
def readUnbounded (cs : List Char) : Except Fault (Datum × List Char) :=
  match cs with
  | '-' :: digits =>
    match wholeNumber? digits with
    | some (n + 1, rest) => .ok (.int (Int.negSucc n), rest)
    | _ => readScalar cs
  | _ =>
    match wholeNumber? cs with
    | some (n, rest) => .ok (.nat n, rest)
    | none => readScalar cs

variable {cs rest : List Char}

theorem splits_digits {ds : List Char} (digits : ∀ d ∈ ds, isDigit d = true) (ends : EndsDigits rest) :
    (ds ++ rest).takeWhile isDigit = ds ∧ (ds ++ rest).dropWhile isDigit = rest := by
  rw [List.takeWhile_append_of_pos digits, List.dropWhile_append_of_pos digits]
  cases rest with
  | nil => exact ⟨List.append_nil ds, rfl⟩
  | cons c rest =>
    rw [List.takeWhile_cons, List.dropWhile_cons, ends c rfl]
    exact ⟨List.append_nil ds, rfl⟩

theorem continues_ends (ends : EndsNumber rest) : continues rest = false := by
  cases rest with
  | nil => rfl
  | cons c rest =>
    obtain ⟨_, notPoint, notMark⟩ := ends c rfl
    rw [continues, notMark, decide_eq_false notPoint]
    rfl

theorem toDigits_plain (n : Nat) :
    ∃ d ds, Nat.toDigits 10 n = d :: ds ∧ (decide (d = '0') && !ds.isEmpty) = false := by
  rcases Nat.eq_zero_or_pos n with rfl | positive
  · exact ⟨'0', [], Nat.toDigits_zero 10, rfl⟩
  · obtain ⟨d, ds, same, nonzero⟩ := head_toDigits positive
    exact ⟨d, ds, same, by rw [decide_eq_false nonzero, Bool.false_and]⟩

theorem wholeNumber?_digits (n : Nat) (ends : EndsNumber rest) :
    wholeNumber? (Nat.toDigits 10 n ++ rest) = some (n, rest) := by
  obtain ⟨taken, left⟩ := splits_digits (fun d member => isDigit_toDigits (n := n) member) ends.digits
  obtain ⟨d, ds, same, plain⟩ := toDigits_plain n
  have value := digitsValue_toDigits n
  rw [same] at taken left value ⊢
  unfold wholeNumber?
  rw [taken, left]
  dsimp only
  rw [plain, continues_ends ends, value]
  rfl

theorem wholeNumber?_other {c : Char} (notDigit : isDigit c = false) (cs : List Char) :
    wholeNumber? (c :: cs) = none := by
  unfold wholeNumber?
  rw [List.takeWhile_cons, notDigit]
  rfl

theorem readUnbounded_other {c : Char} (notMinus : c ≠ '-') (notDigit : isDigit c = false) (cs : List Char) :
    readUnbounded (c :: cs) = readScalar (c :: cs) := by
  unfold readUnbounded
  rw [wholeNumber?_other notDigit]
  split
  · next minus => exact absurd (List.cons.inj minus).1 notMinus
  · rfl

theorem readUnbounded_minus {n : Nat} (number : wholeNumber? cs = some (n + 1, rest)) :
    readUnbounded ('-' :: cs) = .ok (.int (Int.negSucc n), rest) := by
  simp only [readUnbounded, number]

theorem readUnbounded_nat {n : Nat} (number : wholeNumber? cs = some (n, rest)) :
    readUnbounded cs = .ok (.nat n, rest) := by
  unfold readUnbounded
  split
  · next digits =>
    rw [wholeNumber?_other rfl] at number
    cases number
  · rw [number]

theorem readUnbounded_int (i : Int) (ends : EndsNumber rest) :
    readUnbounded (intChars i ++ rest) = .ok (wholeDatum i, rest) := by
  have digits := wholeNumber?_digits i.natAbs ends
  unfold intChars wholeDatum
  by_cases negative : i < 0
  · rw [if_pos negative, if_pos negative, List.cons_append]
    obtain ⟨n, rfl⟩ := Int.eq_negSucc_of_lt_zero negative
    exact readUnbounded_minus digits
  · rw [if_neg negative, if_neg negative, readUnbounded_nat digits]
    congr 3
    omega

/-- Whole numbers of any size are read back. -/
theorem readUnbounded_recovers : Recovers readUnbounded fun _ => True := by
  intro value leaf layout outer rest ends
  have same (small : Leaf InRange value) {c : Char} {cs : List Char} (text : write layout outer value = c :: cs)
      (notMinus : c ≠ '-') (notDigit : isDigit c = false) :
      readUnbounded (write layout outer value ++ rest) = .ok (value.datum, rest) := by
    have read := readScalar_recovers value small layout outer rest ends
    rw [text, List.cons_append] at read ⊢
    rw [readUnbounded_other notMinus notDigit, read]
  cases leaf with
  | null => exact same .null (by rw [write]) (by decide) rfl
  | bool b =>
    cases b with
    | true => exact same (.bool true) (by rw [write]) (by decide) rfl
    | false => exact same (.bool false) (by rw [write]) (by decide) rfl
  | text s => exact same (.text s) (by rw [write, textChars, List.cons_append]) (by decide) rfl
  | int =>
    rw [write]
    exact readUnbounded_int _ ends

end Unbounded

end Tablature.Json
