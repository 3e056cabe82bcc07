import Tablature.Json.Reader
import Tablature.Document.FromJson
import Tablature.Proofs.Formats

namespace Tablature.Json

variable {α σ : Type} {P : α → Prop} {I : σ → Prop}

/-- Every round adds one item with the property to those that are done. The fuel only makes an end of the loop:
when it is used up, nothing is read. -/
theorem readItems_yields {item : List Char → Except Fault (α × List Char)} (each : Yields P item) (fuel : Nat)
    (first : Bool) {done : List α} (start : ∀ a ∈ done, P a) :
    Yields (fun items => ∀ a ∈ items, P a) (readItems item fuel first done) := by
  induction fuel generalizing first done with
  | zero => exact fun _ => .error _
  | succ fuel ih =>
    intro cs
    unfold readItems
    refine .after _ fun next => ?_
    split
    · exact .ok fun a member => start a (List.mem_reverse.mp member)
    · exact (each _).mapError.bind fun result holds => ih false (List.forall_mem_cons.mpr ⟨holds, start⟩) result.2

theorem readFields_yields {field : σ → String → List Char → Except Fault (σ × List Char)}
    (keeps : ∀ state key, I state → Yields I (field state key)) (fuel : Nat) (first : Bool) {state : σ}
    (start : I state) : Yields I (readFields field fuel first state) := by
  induction fuel generalizing first state with
  | zero => exact fun _ => .error _
  | succ fuel ih =>
    intro cs
    unfold readFields
    refine .after _ fun next => ?_
    split
    · exact .ok start
    · exact (keeps state _ start _).mapError.bind fun result holds => ih false holds result.2

theorem readListOf_yields {item : Nat → List Char → Except Fault (α × List Char)}
    (each : ∀ depth, Yields P (item depth)) (depth : Nat) :
    Yields (fun items => ∀ a ∈ items, P a) (readListOf item depth) := by
  intro cs
  unfold readListOf
  split
  · exact .error _
  · split
    · exact .error _
    · exact readItems_yields (each _) _ true (List.forall_mem_nil _) _
  · exact .error _

section Records

variable {schema : Schema (Setter σ)}

/-- An unknown field is passed over and changes nothing, and a known one is set once. The names that were seen
beside the record do not count for the invariant. -/
theorem readField_yields (keeps : ∀ field ∈ schema.fields, Keeps I field.read) (depth : Nat) {state : σ × List Nat}
    (start : I state.1) (key : String) : Yields (fun state => I state.1) (readField schema depth state key) := by
  intro cs
  unfold readField
  split
  · exact .after _ fun _ => .after _ fun _ => .ok start
  · split
    · exact .error _
    · next field found =>
      split
      · exact .error _
      · refine .after _ fun value => ?_
        exact (keeps field (List.mem_of_getElem? found) depth state.1 start value).bind fun _ holds => .ok holds

/-- A record may be a list of its fields in their order. It may end early, with the fields that were read so far
set. -/
theorem readInOrder_yields {fields : List (Field (Setter σ))} (keeps : ∀ field ∈ fields, Keeps I field.read)
    (depth count : Nat) {record : σ} (start : I record) :
    Yields I (readInOrder schema depth count record fields) := by
  induction fields generalizing count record with
  | nil =>
    intro cs
    unfold readInOrder
    split
    · exact .error _
    · exact .ok start
    · split <;> exact .error _
    · exact .error _
  | cons field fields ih =>
    intro cs
    obtain ⟨first, rest⟩ := List.forall_mem_cons.mp keeps
    unfold readInOrder
    refine .after _ fun next => ?_
    split
    · split
      · exact .error _
      · exact .ok start
    · exact (first depth record start _).bind fun result holds => ih rest (count + 1) holds result.2

/-- An invariant that no field breaks holds of every record that is read. -/
theorem readRecord_yields (keeps : ∀ field ∈ schema.fields, Keeps I field.read) {default : σ} (start : I default)
    (depth : Nat) : Yields I (readRecord schema default depth) := by
  intro cs
  unfold readRecord
  split
  · exact .error _
  · split
    · exact .error _
    · next depth =>
      have fields := readFields_yields (I := fun state : σ × List Nat => I state.1)
        fun state key holds => readField_yields keeps depth holds key
      refine (fields _ true start _).bind fun result holds => ?_
      dsimp only
      split
      · exact .error _
      · exact .ok holds
  · split
    · exact .error _
    · exact readInOrder_yields keeps _ 0 start _
  · exact .error _

end Records

theorem readWhole_ensures {read : List Char → Except Fault (α × List Char)} (reads : Yields P read)
    (source : List Char) : Ensures P (readWhole read source) := by
  refine (reads source).bind fun result holds => ?_
  dsimp only
  split
  · exact .ok holds
  · exact .error _

/-- A value stands within a number of nested lists and objects. -/
def format : Format Nat (List Char) Fault where
  text _ := readText
  tempo _ := readTempo
  count _ := readCount
  subsection := Subsection.readJson
  listOf := readListOf
  record := readRecord
  whole read := readWhole (read nesting)
  listOf_yields := readListOf_yields
  record_yields keeps start := readRecord_yields keeps start
  whole_ensures reads := readWhole_ensures (reads nesting)

theorem format_document : format.document = Document.ofJson := rfl

end Tablature.Json
