import Tablature.EditorLint
import Tablature.Proofs.FormReading
import Tablature.Proofs.Json.Recovery

namespace Tablature

open Json

def Location.indices (l : Location) : List Nat :=
  [l.sectionIndex, l.subsectionIndex] ++ l.sequenceIndex.toList ++ [l.unit]

/-- A place as it is read from the text for an editor. -/
def Location.told (l : Location) : Datum :=
  .map ([(.text "sectionIndex", .nat l.sectionIndex), (.text "subsectionIndex", .nat l.subsectionIndex)] ++
    l.sequenceIndex.toList.map (fun q => (.text "chordSequenceIndex", .nat q)) ++ [(.text "chordIndex", .nat l.unit)])

/-- A problem as it is read from the text for an editor. -/
def EditorDiagnostic.told (e : EditorDiagnostic) : Datum :=
  .map [(.text "message", .text e.message), (.text "kind", .text e.kind), (.text "severity", .text e.severity),
    (.text "location", (e.location.map Location.told).getD .null)]

theorem Location.datum_json (l : Location) : l.json.datum = l.told := by
  obtain ⟨s, t, sequence, unit⟩ := l
  cases sequence <;>
    simp [Location.json, Location.told, datum, fieldData_eq, Json.optional, Json.nat, wholeDatum_nat]

theorem EditorDiagnostic.datum_json (e : EditorDiagnostic) : e.json.datum = e.told := by
  obtain ⟨message, kind, severity, location⟩ := e
  cases location with
  | none => rfl
  | some l =>
    simp only [EditorDiagnostic.json, EditorDiagnostic.told, datum, fieldData_eq, List.map_cons, List.map_nil, orNull,
      Location.datum_json, Option.map_some, Option.getD_some]

theorem Location.told_injective : Function.Injective Location.told := by
  rintro ⟨s, t, q, k⟩ ⟨s', t', q', k'⟩ same
  cases q <;> cases q' <;> simp_all [Location.told]

theorem EditorDiagnostic.told_injective : Function.Injective EditorDiagnostic.told := by
  rintro ⟨message, kind, severity, location⟩ ⟨message', kind', severity', location'⟩ same
  simp only [EditorDiagnostic.told, Datum.map.injEq, List.cons.injEq, Prod.mk.injEq, Datum.text.injEq, true_and,
    and_true] at same
  obtain ⟨rfl, rfl, rfl, place⟩ := same
  cases location with
  | none =>
    cases location' with
    | none => rfl
    | some l => cases place
  | some l =>
    cases location' with
    | none => cases place
    | some l' => rw [Location.told_injective place]

section Texts

variable {scalar : List Char → Except Fault (Datum × List Char)} {kept : Int → Prop}

theorem Location.whole_json {l : Location} (fits : ∀ i ∈ l.indices, kept i) (depth : Nat) :
    Whole kept (depth + 1) l.json := by
  have index {i : Nat} (member : i ∈ l.indices) : Whole kept depth (.nat i) := .leaf (.int (fits i member))
  obtain ⟨s, t, sequence, unit⟩ := l
  refine .object fun field member => ?_
  cases sequence <;>
    simp only [Json.optional, List.cons_append, List.nil_append, List.mem_cons, List.not_mem_nil, or_false] at member
  · rcases member with rfl | rfl | rfl <;> exact index (by simp [indices])
  · rcases member with rfl | rfl | rfl | rfl <;> exact index (by simp [indices])

theorem EditorDiagnostic.whole_json {e : EditorDiagnostic} (fits : ∀ l ∈ e.location, ∀ i ∈ l.indices, kept i)
    (depth : Nat) : Whole kept (depth + 2) e.json := by
  refine .object fun field member => ?_
  simp only [List.mem_cons, List.not_mem_nil, or_false] at member
  rcases member with rfl | rfl | rfl | rfl
  · exact .leaf (.text e.message)
  · exact .leaf (.text e.kind)
  · exact .leaf (.text e.severity)
  · cases place : e.location with
    | none => exact .leaf .null
    | some l => exact Location.whole_json (fits l place) depth

/-- The text for an editor is read back as its problems in order, if the reader keeps their indices. -/
theorem editorLint_recovered (recovers : Recovers scalar kept) {source : String}
    (fits : ∀ e ∈ editorDiagnostics source, ∀ l ∈ e.location, ∀ i ∈ l.indices, kept i) :
    readWhole (readNested scalar nesting) (editorLint source).toList =
      .ok (.list ((editorDiagnostics source).map EditorDiagnostic.told)) := by
  have whole : Whole kept nesting (.list ((editorDiagnostics source).map EditorDiagnostic.json)) := by
    refine .list fun item member => ?_
    obtain ⟨e, shown, rfl⟩ := List.mem_map.mp member
    exact EditorDiagnostic.whole_json (fits e shown) 124
  have data : (Json.list ((editorDiagnostics source).map EditorDiagnostic.json)).datum =
      .list ((editorDiagnostics source).map EditorDiagnostic.told) := by
    rw [datum, itemData_eq, List.map_map]
    congr 1
    exact List.map_congr_left fun e _ => e.datum_json
  rw [editorLint, whole.recovered recovers, data]

theorem editorLint_unbounded (source : String) :
    readWhole (readNested readUnbounded nesting) (editorLint source).toList =
      .ok (.list ((editorDiagnostics source).map EditorDiagnostic.told)) :=
  editorLint_recovered readUnbounded_recovers fun _ _ _ _ _ _ => trivial

theorem editorLint_injective {source other : String} (same : editorLint source = editorLint other) :
    editorDiagnostics source = editorDiagnostics other := by
  have read := editorLint_unbounded source
  rw [same, editorLint_unbounded] at read
  have told := Datum.list.inj (Except.ok.inj read)
  exact (List.map_injective_iff.mpr EditorDiagnostic.told_injective told).symm

theorem editorLint_empty (source : String) : editorLint source = "[]" ↔ editorDiagnostics source = [] := by
  constructor
  · intro empty
    have read := editorLint_unbounded source
    rw [empty] at read
    have nothing : readWhole (readNested readUnbounded nesting) "[]".toList = .ok (.list []) := rfl
    rw [nothing] at read
    exact List.map_eq_nil_iff.mp (Datum.list.inj (Except.ok.inj read)).symm
  · intro none
    rw [editorLint, none]
    rfl

end Texts

theorem Document.load_refuses {source : String} {error : LoadError} (refused : load source = .error error) :
    ∃ line column message, error = .document line column message := by
  unfold load at refused
  split at refused
  · unfold loadJson at refused
    cases read : ofJson source.toList with
    | error fault =>
      rw [read] at refused
      cases refused
      exact ⟨_, _, _, rfl⟩
    | ok d =>
      rw [read] at refused
      cases refused
  · unfold loadYaml at refused
    cases read : ofYaml source.toList with
    | error fault =>
      rw [read] at refused
      cases refused
      dsimp only
      cases fault.mark? with
      | some mark => exact ⟨_, _, _, rfl⟩
      | none => exact ⟨_, _, _, rfl⟩
    | ok d =>
      rw [read] at refused
      cases refused

/-- For every source the text for an editor is a JSON list that is read back as what there is to show, in order:
the problems of the document, or why it cannot be read. It is empty only if the document has no problems. -/
theorem editorLint_faithful (source : String) :
    ∃ shown : List EditorDiagnostic,
      ((∃ d, Document.load source = .ok d ∧
          shown = d.lint.map fun p => ⟨p.message, p.kind.name, p.severity.name, p.location⟩) ∨
        ∃ line column message, Document.load source = .error (.document line column message) ∧
          shown = [⟨toString line ++ ":" ++ toString column ++ ": " ++ message, "parse-error", "error", none⟩]) ∧
      readWhole (readNested readUnbounded nesting) (editorLint source).toList =
        .ok (.list (shown.map EditorDiagnostic.told)) ∧
      ((∀ e ∈ shown, ∀ l ∈ e.location, ∀ i ∈ l.indices, i < 0x10000000000000000) →
        datumOf (editorLint source) = .ok (.list (shown.map EditorDiagnostic.told))) ∧
      (∀ other, editorLint other = editorLint source → editorDiagnostics other = shown) ∧
      (editorLint source = "[]" ↔ ∃ d, Document.load source = .ok d ∧ d.lint = []) := by
  refine ⟨editorDiagnostics source, ?_, editorLint_unbounded source, ?_, fun other => editorLint_injective, ?_⟩
  · cases loaded : Document.load source with
    | ok d =>
      refine Or.inl ⟨d, rfl, ?_⟩
      rw [editorDiagnostics, loaded]
      rfl
    | error error =>
      obtain ⟨line, column, message, rfl⟩ := Document.load_refuses loaded
      refine Or.inr ⟨line, column, message, rfl, ?_⟩
      rw [editorDiagnostics, loaded]
      rfl
  · intro fits
    rw [datumOf, readDatum_nested]
    refine editorLint_recovered readScalar_recovers fun e shown l place i member => ?_
    have small := fits e shown l place i member
    exact ⟨by omega, by omega⟩
  · rw [editorLint_empty, editorDiagnostics]
    cases Document.load source with
    | ok d => simp
    | error error => simp

/-- A document with a note length whose tag is escaped in the message, and once more in the text. -/
def Document.oddLength : Document :=
  { sections := [
      { id := "s"
        subsections := [
          { id := "t", content := .tab [.playable "c" "\"\\\n"] }] }] }

theorem editorLint_faithful_located :
    datumOf (editorLint Document.oddLength.toJson) = .ok (.list [.map [
      (.text "message", .text "Unknown note length \"\\\"\\\\\\n\", playing it as a quarter note"),
      (.text "kind", .text "unknown-note-length"), (.text "severity", .text "warning"),
      (.text "location", .map [(.text "sectionIndex", .nat 0), (.text "subsectionIndex", .nat 0),
        (.text "chordIndex", .nat 0)])]]) := by
  have whole : AllWhole Document.oddLength.tempos := by
    have tempos : Document.oddLength.tempos = [none, none] := rfl
    intro bpm member
    rw [tempos] at member
    simp only [List.mem_cons, Option.some_ne_none, List.not_mem_nil, or_false] at member
  have problems : (Document.oddLength.mapTempos reloadedTempo).lint =
      [⟨.unknownLength "\"\\\n", some (.column 0 0 0)⟩] := rfl
  have loaded := Document.load_written whole Json.Layout.indented_spaced
  obtain ⟨shown, ⟨d, again, rfl⟩ | ⟨line, column, message, refused, _⟩, _, reads, _⟩ :=
    editorLint_faithful Document.oddLength.toJson
  · have same : d = Document.oddLength.mapTempos reloadedTempo := Except.ok.inj (again.symm.trans loaded)
    rw [same, problems] at reads
    refine reads fun e member l place i index => ?_
    rw [List.map_singleton, List.mem_singleton] at member
    subst member
    cases place
    revert i
    decide
  · cases refused.symm.trans loaded

end Tablature
