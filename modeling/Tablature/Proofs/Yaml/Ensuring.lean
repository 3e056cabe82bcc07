import Tablature.Document.FromYaml
import Tablature.Proofs.Formats

namespace Tablature.Yaml

variable {α σ : Type} {P : α → Prop} {I : σ → Prop}

/-- A reference is read as what it leads to. -/
theorem Spot.follow_yields {read : Reader α} (reads : Yields P read) (spot : Spot) :
    Yields P (spot.follow read) := by
  intro u
  unfold Spot.follow
  split
  · split
    · exact .error _
    · exact (reads _).bind fun result holds => .ok holds
  · exact reads u

/-- A node is read where it stands, or where the reference in its place leads. The place of the node is only told
where it is refused. -/
theorem Spot.atNode_yields {read : Part → Mark → Reader α} (reads : ∀ part mark, Yields P (read part mark))
    (spot : Spot) : Yields P (spot.atNode read) := by
  refine spot.follow_yields fun u => ?_
  split
  · exact .error _
  · exact (reads _ _ _).mapError

/-- Every round adds one item with the property to those that are done. The parts that were left at the start
serve as fuel, since no round takes less than one of them. -/
theorem readItems_yields {item : Nat → Reader α} (each : ∀ index, Yields P (item index)) (spot : Spot)
    (fuel : List (Placed Part)) (index : Nat) {done : List α} (start : ∀ a ∈ done, P a) :
    Yields (fun items => ∀ a ∈ items, P a) (readItems spot item fuel index done) := by
  induction fuel generalizing index done with
  | nil => exact fun _ => .error _
  | cons _ fuel ih =>
    intro u
    unfold readItems
    split
    · exact .error _
    · exact .ok fun a member => start a (List.mem_reverse.mp member)
    · refine (each index u).bind fun result holds => ?_
      exact ih (index + 1) (List.forall_mem_cons.mpr ⟨holds, start⟩) result.2

theorem readEntries_yields {entry : σ → Reader σ} (keeps : ∀ state, I state → Yields I (entry state)) (spot : Spot)
    (fuel : List (Placed Part)) {state : σ} (start : I state) : Yields I (readEntries spot entry fuel state) := by
  induction fuel generalizing state with
  | nil => exact fun _ => .error _
  | cons _ fuel ih =>
    intro u
    unfold readEntries
    split
    · exact .error _
    · exact .ok start
    · exact (keeps state start u).bind fun result holds => ih holds result.2

/-- An empty scalar is read as an empty list, of whose items everything holds. -/
theorem readListOf_yields {item : Spot → Reader α} (each : ∀ spot, Yields P (item spot)) (spot : Spot) :
    Yields (fun items => ∀ a ∈ items, P a) (readListOf item spot) := by
  unfold readListOf
  refine spot.atNode_yields fun part mark u => ?_
  split
  · exact .error _
  · exact readItems_yields (fun _ => each _) spot _ 0 (List.forall_mem_nil _) u
  · split
    · exact .ok (List.forall_mem_nil _)
    · exact .error _
  · exact .error _

section Records

variable {schema : Schema (Setter σ)}

theorem readField_yields (keeps : ∀ field ∈ schema.fields, Keeps I field.read) (spot : Spot) {state : σ × List Nat}
    (start : I state.1) : Yields (fun state => I state.1) (readField schema spot state) := by
  intro u
  unfold readField
  refine .after _ fun key => ?_
  dsimp only
  split
  · exact .after _ fun _ => .ok start
  · next i field found =>
    have member : field ∈ schema.fields := by
      obtain ⟨j, _, atJ⟩ := Option.bind_eq_some_iff.mp found
      obtain ⟨other, here, same⟩ := Option.map_eq_some_iff.mp atJ
      cases same
      exact List.mem_of_getElem? here
    split
    · exact .error _
    · exact (keeps field member _ state.1 start _).bind fun _ holds => .ok holds

/-- An invariant that no field breaks holds of every record that is read. -/
theorem readRecord_yields (keeps : ∀ field ∈ schema.fields, Keeps I field.read) {default : σ} (start : I default)
    (spot : Spot) : Yields I (readRecord schema default spot) := by
  unfold readRecord
  refine spot.atNode_yields fun part mark u => ?_
  split
  · exact .error _
  · next depth _ =>
    have fields := readEntries_yields (I := fun state : σ × List Nat => I state.1)
      fun state holds => readField_yields keeps { spot with depth } holds
    refine (fields spot u.parts start u).bind fun result holds => ?_
    dsimp only
    split
    · exact .error _
    · exact .ok holds
  · split
    · dsimp only
      split
      · exact .error _
      · exact .ok start
    · exact .error _
  · exact .error _

end Records

theorem readWhole_ensures {read : Spot → Reader α} (reads : ∀ spot, Yields P (read spot)) (source : List Char) :
    Ensures P (readWhole read source) := by
  unfold readWhole
  dsimp only
  refine (reads _ _).bind fun result holds => ?_
  split
  · exact .error _
  · split
    · exact .error _
    · exact .ok holds

/-- A value stands at a node of a document. -/
def format : Format Spot Unread Fault where
  text := readText
  tempo := readTempo
  count := readCount
  subsection := Subsection.readYaml
  listOf := readListOf
  record := readRecord
  whole := readWhole
  listOf_yields := readListOf_yields
  record_yields keeps start := readRecord_yields keeps start
  whole_ensures := readWhole_ensures

theorem format_document : format.document = Document.ofYaml := rfl

end Tablature.Yaml
