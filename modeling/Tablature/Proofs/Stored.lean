import Tablature.Document.Load
import Tablature.Proofs.ExactTempo
import Tablature.Proofs.Json.Decoding
import Tablature.Proofs.TempoMap

namespace Tablature

open Json

variable {α σ : Type}

/-- A value that a reader takes in every layout sets a field to what the reader makes of it, whatever the record
holds before. -/
theorem Json.Loads.into {value : Json} {read : List Char → Except Fault (α × List Char)} {a : α}
    (loads : Loads value read a) (set : σ → α → σ) (depth : Nat) (record : σ) :
    TextSets depth (Json.into read set) value record (set record a) := by
  intro layout spaced outer
  refine ⟨(loads layout spaced outer).opens, fun blanks rest spaces ends => ?_⟩
  rw [Json.into, (loads layout spaced outer).reads blanks rest spaces ends]
  rfl

/-- The same for a value that is first read as a datum and only then taken for what it should be. So are the parts
of a subsection, which are held until its kind is known. -/
theorem Json.Decodes.into {depth : Nat} {value : Json} {read : Datum → Except Mismatch α} {a : α}
    (decodes : Decodes depth value read a) (set : σ → α → σ) (record : σ) :
    DatumSets depth (Datum.into read set) value record (set record a) := by
  obtain ⟨datum, taken, loads⟩ := decodes
  refine ⟨datum, ?_, loads⟩
  rw [Datum.into, taken]
  rfl

section Tempos

/-- A whole number is the same double whether it is read with a sign or without. -/
theorem number_whole (n : Int) : Datum.number (wholeDatum n) = .ok (Float.ofInt n) := by
  cases n with
  | ofNat n => rfl
  | negSucc n =>
    rw [wholeDatum, if_pos (Int.negSucc_lt_zero n)]
    rfl

/-- Whether the number stands for "no tempo set" is looked at only after it is read, so that it may be written as an
integer like any other. -/
theorem tempo_whole (n : Int) : Datum.tempo (wholeDatum n) = .ok (storedTempo (Float.ofInt n)) := by
  cases n with
  | ofNat n => rfl
  | negSucc n =>
    rw [wholeDatum, if_pos (Int.negSucc_lt_zero n)]
    rfl

/-- A tempo is stored as an integer, as null if it is not finite, or else as a fraction. -/
theorem tempoJson_cases (bpm : Option Float) :
    (∃ n, tempoJson bpm = .int n ∧ InRange n ∧ rereadTempo bpm = storedTempo (Float.ofInt n)) ∨
      (∃ x, tempoJson bpm = .float x ∧ x.isFinite = false ∧ rereadTempo bpm = none) ∨
      ∃ x y, tempoJson bpm = .float x ∧ Spells (floatChars x) (.float y) ∧ rereadTempo bpm = storedTempo y := by
  cases bpm with
  | none =>
    obtain ⟨found, unset⟩ := stored_unset
    refine Or.inl ⟨-1, ?_, ⟨by decide, by decide⟩, ?_⟩
    · rw [tempoJson, Option.getD_none, found]
    · rw [rereadTempo_none, unset]
  | some x =>
    by_cases whole : IsWhole x
    · cases finite : x.isFinite with
      | true =>
        obtain ⟨n, found, small, stored⟩ := stored_whole whole finite
        refine Or.inl ⟨n, ?_, ⟨by omega, by omega⟩, ?_⟩
        · rw [tempoJson, Option.getD_some, found]
        · rw [whole.rereads, stored]
      | false =>
        obtain ⟨found, _⟩ := stored_infinite finite
        refine Or.inr (Or.inl ⟨x, ?_, finite, rereadTempo_infinite finite⟩)
        rw [tempoJson, Option.getD_some, found]
    · obtain ⟨y, read, spells⟩ := spells_reread whole
      refine Or.inr (Or.inr ⟨x, y, ?_, spells, ?_⟩)
      · rw [tempoJson, Option.getD_some, wholeTempo_fraction whole]
      · rw [rereadTempo_fraction whole, read, Option.bind_some]

/-- The format has no infinities and no NaN: they are written as null. This is how such tempos get lost, since a
null is read as no tempo. -/
theorem write_infinite (layout : Layout) (outer : Nat) {x : Float} (infinite : x.isFinite = false) :
    write layout outer (.float x) = ['n', 'u', 'l', 'l'] := by
  rw [write, floatChars, infinite]
  rfl

/-- The tempo of a document is read straight from the text. What comes out is the tempo as it is reread, in each of
the three ways in which it may be stored. -/
theorem tempo_loads (bpm : Option Float) : Loads (tempoJson bpm) readTempo (rereadTempo bpm) := by
  intro layout _ outer
  rcases tempoJson_cases bpm with ⟨n, json, range, read⟩ | ⟨x, json, infinite, unset⟩ | ⟨x, y, json, spells, read⟩
  · rw [json, write, read]
    exact readTempo_int range (number_whole n)
  · rw [json, write_infinite layout outer infinite, unset]
    exact readTempo_null
  · rw [json, write, read]
    exact spells.readsTempo rfl

/-- The tempos of subsections and chord sequences are read as data first, with the same result. -/
theorem tempo_decodes (bpm : Option Float) (depth : Nat) :
    Decodes depth (tempoJson bpm) Datum.tempo (rereadTempo bpm) := by
  rcases tempoJson_cases bpm with ⟨n, json, range, read⟩ | ⟨x, json, infinite, unset⟩ | ⟨x, y, json, spells, read⟩
  · rw [json, read]
    exact .int depth range (tempo_whole n)
  · rw [json, unset]
    refine ⟨.null, rfl, fun layout _ outer => ?_⟩
    rw [write_infinite layout outer infinite]
    exact reads_null depth
  · rw [json, read]
    refine ⟨.float y, rfl, fun layout _ outer => ?_⟩
    rw [write]
    exact spells.reads depth

end Tempos

section Slots

theorem PalmMute.decodes (depth : Nat) (mute : PalmMute) : Decodes depth (.text mute.slot) PalmMute.ofDatum mute := by
  refine .text depth mute.slot ?_
  rw [ofDatum, ofKey, ofSlot?_slot]

/-- The slots in which a column is written are taken for that column again. There are eleven of them if its length
is modified, and ten if not. -/
theorem Column.ofSlots_slots (c : Column) : ofSlots c.slots = .ok c := by
  obtain ⟨mute, ⟨⟨frets⟩, six⟩, effects, noteLength, id, modified⟩ := c
  match frets, six with
  | [a, b, c, d, e, f], _ => cases mute <;> cases modified <;> rfl

theorem Column.decodes (depth : Nat) (c : Column) : Decodes (depth + 1) c.json Column.ofDatum c := by
  refine (Decodes.texts depth c.slots).andThen ?_
  rw [c.ofSlots_slots]
  rfl

theorem Column.list_decodes (depth : Nat) (columns : List Column) :
    Decodes (depth + 2) (.list (columns.map Column.json)) (Datum.listOf Column.ofDatum) columns := by
  have list := Decodes.list fun c (_ : c ∈ columns) => Column.decodes depth c
  rwa [List.map_id'] at list

end Slots

section Subsections

/-- The tempos among these that are set are whole if they are finite. -/
def AllWhole (tempos : List (Option Float)) : Prop :=
  ∀ bpm, some bpm ∈ tempos → IsWhole bpm

def Content.kind : Content → SubsectionKind
  | tab _ => .tab
  | chords _ => .chord

/-- The word under `type` brings back which of the two kinds a content is. An empty content keeps its kind by it. -/
theorem Content.ofTag_tag (c : Content) : SubsectionKind.ofTag c.tag = .ok c.kind := by
  cases c <;> rfl

namespace Subsection

/-- A kind is read as a text of its own, not as a datum: what stands after the quote decides alone. -/
theorem readJsonKind_quote {blanks : List Char} (spaces : AllSpace blanks) (cs : List Char) :
    readJsonKind (blanks ++ '"' :: cs) = readString cs >>= fun tag =>
      match SubsectionKind.ofTag tag.1 with
      | .ok kind => .ok (kind, tag.2)
      | .error mismatch => .error (.here (.mismatch mismatch) tag.2) := by
  rw [readJsonKind, skipSpace_to spaces rfl]
  rfl

theorem readJsonKind_tag {blanks : List Char} (spaces : AllSpace blanks) (c : Content) (rest : List Char) :
    readJsonKind (blanks ++ textChars c.tag ++ rest) = .ok (c.kind, rest) := by
  rw [List.append_assoc, textChars_append, readJsonKind_quote spaces, readString_text, ok_bind, c.ofTag_tag]

/-- The type sets the kind while none is known, and leaves the fields that are held as they are. -/
theorem kind_sets (depth : Nat) (c : Content) (held : List (Datum × Datum)) :
    Sets (readJsonField depth) "type" (textChars c.tag) (none, held) (some c.kind, held) := by
  intro blanks rest spaces _
  have first : ¬(none : Option SubsectionKind).isSome = true := nofun
  rw [readJsonField, if_pos rfl, if_neg first, List.cons_append, List.cons_append, readColon_colon, ok_bind,
    readJsonKind_tag spaces]
  rfl

theorem held_set {depth : Nat} {key : String} {text : List Char} {value : Datum} (other : key ≠ "type")
    (reads : Reads (readDatum depth) text value) (kind : Option SubsectionKind) (held : List (Datum × Datum)) :
    Sets (readJsonField depth) key text (kind, held) (kind, (.text key, value) :: held) := by
  intro blanks rest spaces ends
  rw [readJsonField, if_neg other, List.cons_append, List.cons_append, readColon_colon, ok_bind,
    reads.reads blanks rest spaces ends]
  rfl

theorem readJson_brace (depth : Nat) {blanks : List Char} (spaces : AllSpace blanks) (cs : List Char) :
    readJson (depth + 1) (blanks ++ '\x7b' :: cs) =
      readFields (readJsonField depth) (cs.length + 1) true (none, []) cs >>= fun result =>
        match result.1.1 with
        | some kind => ofHeld kind (.map result.1.2.reverse) result.2
        | none => .error (.here (.mismatch (.missingField "type")) result.2) := by
  rw [readJson, skipSpace_to spaces rfl]
  rfl

/-- An object is read as a subsection if its fields leave a kind and what is held is taken for that kind. The fields
are held in reverse, the last one first. -/
theorem readJson_object {layout : Layout} (spaced : layout.Spaced) {depth : Nat} {kind : SubsectionKind}
    {fields : List (String × List Char)} {entries : List (Datum × Datum)} {b : Subsection}
    (sets : SetsAll (readJsonField depth) fields (none, []) (some kind, entries.reverse))
    (taken : ofDatum kind (.map entries) = .ok b) (outer : Nat) :
    Reads (readJson (depth + 1)) ('\x7b' :: interior '\x7d' layout outer (fields.map (fieldChars layout))) b where
  opens := opens_solid rfl (by decide)
  reads := by
    intro blanks rest spaces _
    rw [List.append_assoc, List.cons_append, readJson_brace depth spaces, readFields_interior spaced sets, ok_bind]
    dsimp only
    rw [List.reverse_reverse, ofHeld, taken]

end Subsection

end Subsections

end Tablature
