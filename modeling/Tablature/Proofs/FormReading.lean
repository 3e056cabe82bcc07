import Tablature.Proofs.Forms
import Tablature.Proofs.Stored

namespace Tablature

open Json

section Picking

variable {α : Type}

/-- The value of the field at `i`, if that is among those that are set. -/
def kept (seen : List Nat) (i : Nat) (a default : α) : α :=
  if i ∈ seen then a else default

/-- A field that was left out has its value by default. If that is the value it should have, nothing shows that it
was left out. -/
theorem kept_all {all : List Nat} {i : Nat} {a default : α} (left : i ∉ all → a = default) :
    kept all i a default = a := by
  by_cases member : i ∈ all
  · exact if_pos member
  · exact (if_neg member).trans (left member).symm

end Picking

section Outcomes

variable {α σ : Type} {lacking strict : Prop} {depth n : Nat} {value other : Json} {a : α} {pick : List Nat → σ}

/-- A value that is written in one way only is read as it is, whatever may be lacking elsewhere. -/
theorem Json.DatumOutcome.fixed {take : Datum → Except Mismatch α} (decodes : Decodes depth value take a)
    (same : other = value) : DatumOutcome lacking (other = value) depth other take a := by
  rw [same]
  exact Or.inl ⟨rfl, decodes⟩

/-- What becomes of a value becomes of its field: it is set to what is read, at whatever point among the others, or
the whole record is refused for it. -/
theorem Json.DatumOutcome.into {take : Datum → Except Mismatch α} {set : σ → α → σ}
    (outcome : DatumOutcome lacking strict depth value take a) (step : ∀ seen, set (pick seen) a = pick (n :: seen)) :
    (strict ∧ ∀ seen, DatumSets depth (Datum.into take set) value (pick seen) (pick (n :: seen))) ∨
      (lacking ∧ DatumFails depth (Datum.into take set) value) := by
  refine outcome.imp (fun ⟨stricts, decodes⟩ => ⟨stricts, fun seen => ?_⟩)
    fun ⟨lack, misfits⟩ => ⟨lack, fun record => ?_⟩
  · rw [← step]
    exact decodes.into set (pick seen)
  · obtain ⟨datum, ⟨mismatch, refused⟩, loads⟩ := misfits
    refine ⟨datum, ⟨mismatch, ?_⟩, loads⟩
    rw [Datum.into, refused]
    rfl

theorem Json.TextOutcome.fixed {read : List Char → Except Fault (α × List Char)} (loads : Loads value read a)
    (same : other = value) : TextOutcome lacking (other = value) other read a := by
  rw [same]
  exact Or.inl ⟨rfl, loads⟩

theorem Json.TextOutcome.into {read : List Char → Except Fault (α × List Char)} {set : σ → α → σ}
    (outcome : TextOutcome lacking strict value read a)
    (step : ∀ seen, set (pick seen) a = pick (n :: seen)) :
    (strict ∧ ∀ seen, TextSets depth (Json.into read set) value (pick seen) (pick (n :: seen))) ∨
      (lacking ∧ TextFails depth (Json.into read set) value) := by
  refine outcome.imp (fun ⟨stricts, loads⟩ => ⟨stricts, fun seen => ?_⟩)
    fun ⟨lack, fails⟩ => ⟨lack, fun record layout spaced outer => ?_⟩
  · rw [← step]
    exact loads.into set depth (pick seen)
  · refine ⟨(fails layout spaced outer).opens, fun blanks rest spaces ends => ?_⟩
    obtain ⟨fault, refused⟩ := (fails layout spaced outer).refuses blanks rest spaces ends
    rw [Json.into, refused]
    exact ⟨fault, rfl⟩

theorem Json.TextOutcome.nestedInto {read : Nat → List Char → Except Fault (α × List Char)} {set : σ → α → σ}
    (outcome : TextOutcome lacking strict value (read depth) a)
    (step : ∀ seen, set (pick seen) a = pick (n :: seen)) :
    (strict ∧ ∀ seen, TextSets depth (Json.nestedInto read set) value (pick seen) (pick (n :: seen))) ∨
      (lacking ∧ TextFails depth (Json.nestedInto read set) value) := by
  have nested : (strict ∧ ∀ seen, TextSets depth (Json.into (read depth) set) value (pick seen) (pick (n :: seen))) ∨
      (lacking ∧ TextFails depth (Json.into (read depth) set) value) := outcome.into step
  exact nested

section Serving

variable {slot : Slot} {required : Bool} {set : σ → α → σ}

/-- A field whose value is read as a datum. Besides what becomes of the value it takes its name, its place in the
schema, and that it may be left out if it is not required. -/
theorem Json.Served.datum {schema : Schema (Datum.Setter σ)} {take : Datum → Except Mismatch α}
    (outcome : ∀ value, slot.admits lacking value → DatumOutcome lacking (slot.admits False value) depth value take a)
    (named : schema.index? slot.key = some n)
    (placed : schema.fields[n]? = some ⟨slot.key, required, Datum.into take set⟩)
    (step : ∀ seen, set (pick seen) a = pick (n :: seen))
    (left : slot.omittable lacking → if required then lacking else slot.omittable False) :
    Served lacking schema (DatumSets depth) (DatumFails depth) pick n slot required (Datum.into take set) :=
  ⟨named, placed, fun value form => (outcome value form).into step, left⟩

theorem Json.Served.text {schema : Schema (Setter σ)} {read : List Char → Except Fault (α × List Char)}
    (outcome : ∀ value, slot.admits lacking value → TextOutcome lacking (slot.admits False value) value read a)
    (named : schema.index? slot.key = some n)
    (placed : schema.fields[n]? = some ⟨slot.key, required, Json.into read set⟩)
    (step : ∀ seen, set (pick seen) a = pick (n :: seen))
    (left : slot.omittable lacking → if required then lacking else slot.omittable False) :
    Served lacking schema (TextSets depth) (TextFails depth) pick n slot required (Json.into read set) :=
  ⟨named, placed, fun value form => (outcome value form).into step, left⟩

theorem Json.Served.nested {schema : Schema (Setter σ)} {read : Nat → List Char → Except Fault (α × List Char)}
    (outcome : ∀ value, slot.admits lacking value →
      TextOutcome lacking (slot.admits False value) value (read depth) a)
    (named : schema.index? slot.key = some n)
    (placed : schema.fields[n]? = some ⟨slot.key, required, Json.nestedInto read set⟩)
    (step : ∀ seen, set (pick seen) a = pick (n :: seen))
    (left : slot.omittable lacking → if required then lacking else slot.omittable False) :
    Served lacking schema (TextSets depth) (TextFails depth) pick n slot required (Json.nestedInto read set) :=
  ⟨named, placed, fun value form => (outcome value form).nestedInto step, left⟩

end Serving

theorem rereadTempo_unset {bpm : Option Float} (unset : bpm = none) : rereadTempo bpm = none := by
  rw [unset, rereadTempo_none]

/-- An unset tempo may be written as the number that stands for it, as an integer or as a fraction, or as null. All
of them are read as an unset tempo. -/
theorem tempo_outcome {bpm : Option Float} (depth : Nat) (form : TempoForm bpm value) :
    DatumOutcome lacking (TempoForm bpm value) depth value Datum.tempo (rereadTempo bpm) := by
  refine Or.inl ⟨form, ?_⟩
  rcases form with rfl | ⟨rfl, rfl | rfl⟩
  · exact tempo_decodes bpm depth
  · rw [rereadTempo_none]
    exact ⟨.float unsetTempo, rfl, fun layout _ outer => readDatum_unset depth layout outer⟩
  · rw [rereadTempo_none]
    refine ⟨.null, rfl, fun layout _ outer => ?_⟩
    rw [write]
    exact reads_null depth

end Outcomes

section Strums

variable {lacking : Prop} {value : Json}

/-- The strum in which the fields at these places are set. -/
def Strum.pick (s : Strum) (seen : List Nat) : Strum :=
  ⟨kept seen 0 s.palmMute .off, kept seen 1 s.text ""⟩

/-- A form of a strum is read as that strum. A field may be left out of it only where it holds what it would hold by
default. -/
theorem Strum.outcome (depth : Nat) (s : Strum) (form : s.Form lacking value) :
    DatumOutcome lacking (s.Form False value) (depth + 1) value Strum.ofDatum s := by
  have serves : Serves lacking Strum.schema (DatumSets depth) (DatumFails depth) s.pick 0 s.slots := by
    refine .cons (.datum (fun _ => .fixed (PalmMute.decodes depth _)) rfl rfl
      (fun _ => by simp [pick, kept]) fun may => may) ?_
    refine .cons (.datum (fun _ => .fixed (Decodes.string depth _)) rfl rfl
      (fun _ => by simp [pick, kept]) fun may => may) ?_
    exact .nil rfl
  refine .object serves (fun all left => ?_) .counted form
  rw [pick, kept_all (left 0 _ rfl), kept_all (left 1 _ rfl)]

def StrummingPattern.pick (p : StrummingPattern) (seen : List Nat) : StrummingPattern :=
  ⟨kept seen 0 p.id "", kept seen 1 p.noteLength "", kept seen 2 p.strums []⟩

theorem StrummingPattern.outcome (depth : Nat) (p : StrummingPattern) (form : p.Form lacking value) :
    DatumOutcome lacking (p.Form False value) (depth + 3) value StrummingPattern.ofDatum p := by
  have strums {value : Json} (listed : ListOf (Strum.Form lacking) p.strums value) :
      DatumOutcome lacking (ListOf (Strum.Form False) p.strums value) (depth + 2) value
        (Datum.listOf Strum.ofDatum) p.strums := by
    have list := DatumOutcome.list Strum.Form (fun s _ _ form => Strum.outcome depth s form) listed
    rwa [List.map_id'] at list
  have serves : Serves lacking StrummingPattern.schema (DatumSets (depth + 2)) (DatumFails (depth + 2)) p.pick 0
      p.slots := by
    refine .cons (.datum (fun _ => .fixed (Decodes.string _ _)) rfl rfl
      (fun _ => by simp [pick, kept]) fun may => may) ?_
    refine .cons (.datum (fun _ => .fixed (Decodes.string _ _)) rfl rfl
      (fun _ => by simp [pick, kept]) fun may => may) ?_
    refine .cons (.datum (fun _ => strums) rfl rfl (fun _ => by simp [pick, kept]) fun may => may) ?_
    exact .nil rfl
  refine .object serves (fun all left => ?_) .counted form
  rw [pick, kept_all (left 0 _ rfl), kept_all (fun out => (left 1 _ rfl out).elim), kept_all (left 2 _ rfl)]

def ChordSequence.pick (q : ChordSequence) (seen : List Nat) : ChordSequence :=
  ⟨kept seen 0 q.id "", kept seen 1 q.repetitions 0, kept seen 2 (rereadTempo q.bpm) none,
    kept seen 3 q.pattern {}, kept seen 4 q.chords []⟩

/-- A form of a chord sequence is read as the sequence with its tempo as it is reread. It is refused if the form
lacks the pattern, or the pattern its length. -/
theorem ChordSequence.outcome (depth : Nat) (q : ChordSequence) (form : q.Form lacking value) :
    DatumOutcome lacking (q.Form False value) (depth + 4) value ChordSequence.ofDatum (q.mapTempo rereadTempo) := by
  have serves : Serves lacking ChordSequence.schema (DatumSets (depth + 3)) (DatumFails (depth + 3)) q.pick 0
      q.slots := by
    refine .cons (.datum (fun _ => .fixed (Decodes.string _ _)) rfl rfl
      (fun _ => by simp [pick, kept]) fun may => may) ?_
    refine .cons (.datum (fun _ => .fixed (Decodes.count _ _)) rfl rfl
      (fun _ => by simp [pick, kept]) fun may => may) ?_
    refine .cons (.datum (fun _ => tempo_outcome _) rfl rfl (fun _ => by simp [pick, kept]) fun may => may) ?_
    refine .cons (.datum (fun _ => StrummingPattern.outcome depth q.pattern) rfl rfl
      (fun _ => by simp [pick, kept]) fun may => may) ?_
    refine .cons (.datum (fun _ => .fixed (Decodes.texts _ _)) rfl rfl
      (fun _ => by simp [pick, kept]) fun may => may) ?_
    exact .nil rfl
  refine .object serves (fun all left => ?_) .counted form
  rw [pick, kept_all (left 0 _ rfl), kept_all (left 1 _ rfl),
    kept_all fun out => rereadTempo_unset (left 2 _ rfl out), kept_all fun out => (left 3 _ rfl out).elim,
    kept_all (left 4 _ rfl)]
  rfl

end Strums

section Subsections

variable {lacking : Prop} {value : Json}

/-- A content without anything in it may be left out: its kind alone brings it back. -/
theorem Content.mapTempos_empty {f : Option Float → Option Float} {c : Content} (empty : c.isEmpty) :
    c.mapTempos f = c.kind.noContent := by
  cases c with
  | tab columns => exact congrArg Content.tab empty
  | chords sequences =>
    rw [isEmpty] at empty
    rw [empty]
    rfl

/-- The columns of a tab have one form each. A list of chord sequences is refused if one of them is. -/
theorem Content.outcome (depth : Nat) {c : Content} (form : c.Form lacking value) :
    DatumOutcome lacking (c.Form False value) (depth + 5) value c.kind.content (c.mapTempos rereadTempo) := by
  cases c with
  | tab columns => exact .fixed ((Column.list_decodes (depth + 3) columns).andThen rfl) form
  | chords sequences =>
    have list := DatumOutcome.list ChordSequence.Form (fun q (_ : q ∈ sequences) _ form =>
      ChordSequence.outcome depth q form) form
    refine list.imp (fun ⟨strict, decodes⟩ => ⟨strict, decodes.andThen rfl⟩) fun ⟨lack, misfits⟩ => ⟨lack, ?_⟩
    obtain ⟨datum, ⟨mismatch, refused⟩, loads⟩ := misfits
    refine ⟨datum, ⟨mismatch, ?_⟩, loads⟩
    change Content.chords <$> Datum.listOf ChordSequence.ofDatum datum = _
    rw [refused]
    rfl

namespace Subsection

/-- A subsection is refused when its object ends if no kind was told, or if what is held is not taken for the
kind. -/
theorem readJson_stops {layout : Layout} (spaced : layout.Spaced) {depth : Nat} {kind : Option SubsectionKind}
    {fields : List (String × List Char)} {entries : List (Datum × Datum)}
    (sets : SetsAll (readJsonField depth) fields (none, []) (kind, entries.reverse))
    (stops : ∀ k, kind = some k → ∃ mismatch, ofDatum k (.map entries) = .error mismatch) (outer : Nat) :
    Refuses (readJson (depth + 1)) ('\x7b' :: interior '\x7d' layout outer (fields.map (fieldChars layout))) where
  opens := opens_solid rfl (by decide)
  refuses := by
    intro blanks rest spaces _
    rw [List.append_assoc, List.cons_append, readJson_brace depth spaces, readFields_interior spaced sets, ok_bind]
    dsimp only
    cases kind with
    | none => exact ⟨_, rfl⟩
    | some k =>
      obtain ⟨mismatch, refused⟩ := stops k rfl
      dsimp only
      rw [List.reverse_reverse, ofHeld, refused]
      exact ⟨_, rfl⟩

/-- The type may stand at any place among the fields. It is set there, and the others are held in their order. -/
theorem typed_sets {depth outer : Nat} {layout : Layout} (c : Content) {fields : List (String × Json)}
    {entries : List (Datum × Datum)}
    (each : List.Forall₂ (ReadsEntry depth) (written layout outer (without "type" fields)) entries)
    (tag : ∀ value, ("type", value) ∈ fields → value = .text c.tag)
    (once : (fields.map Prod.fst).count "type" ≤ 1) {kind : Option SubsectionKind}
    (new : "type" ∈ fields.map Prod.fst → kind = none) (held : List (Datum × Datum)) :
    ∃ final, SetsAll (readJsonField depth) (written layout outer fields) (kind, held) (final, entries.reverse ++ held) ∧
      ("type" ∈ fields.map Prod.fst → final = some c.kind) ∧ ("type" ∉ fields.map Prod.fst → final = kind) := by
  induction fields generalizing entries kind held with
  | nil =>
    cases each
    exact ⟨kind, .nil, nofun, fun _ => rfl⟩
  | cons field fields ih =>
    obtain ⟨key, value⟩ := field
    have tag' (value : Json) (member : ("type", value) ∈ fields) := tag value (List.mem_cons_of_mem _ member)
    have once' := Nat.le_trans List.count_le_count_cons once
    by_cases isType : key = "type"
    · subst isType
      have here : "type" ∈ (("type", value) :: fields).map Prod.fst := List.mem_cons_self
      have absent := absent_of_once once
      rw [without_own] at each
      obtain ⟨final, sets, _, same⟩ := ih each tag' once' (fun again => absurd again absent) held
      rw [same absent] at sets
      refine ⟨some c.kind, .cons ?_ sets, fun _ => rfl, fun out => absurd here out⟩
      rw [new here, tag value List.mem_cons_self, write]
      exact kind_sets depth c held
    · have inside : "type" ∈ ((key, value) :: fields).map Prod.fst ↔ "type" ∈ fields.map Prod.fst :=
        List.mem_cons.trans (or_iff_right (Ne.symm isType))
      rw [without_cons isType] at each
      cases each with
      | @cons _ entry _ entries reads each =>
        obtain ⟨name, datum⟩ := entry
        obtain ⟨rfl, reads⟩ := reads
        obtain ⟨final, sets, typed, same⟩ := ih each tag' once' (fun again => new (inside.mpr again))
          ((.text key, datum) :: held)
        rw [List.reverse_cons, List.append_assoc, List.singleton_append]
        exact ⟨final, .cons (held_set isType reads kind held) sets, fun here => typed (inside.mp here),
          fun out => same (mt inside.mpr out)⟩

def pick (b : Subsection) (seen : List Nat) : Subsection :=
  ⟨kept seen 0 b.id "", kept seen 1 (rereadTempo b.bpm) none, kept seen 2 b.repetitions 0,
    kept seen 3 (b.content.mapTempos rereadTempo) b.content.kind.noContent⟩

theorem serves (lacking : Prop) (depth : Nat) (b : Subsection) :
    Serves lacking (schema b.content.kind) (DatumSets (depth + 5)) (DatumFails (depth + 5)) b.pick 0 b.heldSlots := by
  refine .cons (.datum (fun _ => .fixed (Decodes.string _ _)) rfl rfl (fun _ => by simp [pick, kept]) fun may => may) ?_
  refine .cons (.datum (fun _ => tempo_outcome _) rfl rfl (fun _ => by simp [pick, kept]) fun may => may) ?_
  refine .cons (.datum (fun _ => .fixed (Decodes.count _ _)) rfl rfl (fun _ => by simp [pick, kept]) fun may => may) ?_
  refine .cons (.datum (fun _ => Content.outcome depth) rfl rfl
    (fun _ => by simp [pick, kept]) fun may => may) ?_
  exact .nil rfl

theorem pick_all {b : Subsection} (all : List Nat)
    (left : ∀ n slot, b.heldSlots[n]? = some slot → n ∉ all → slot.omittable False) :
    b.pick all = b.mapTempos rereadTempo := by
  rw [pick, kept_all (left 0 _ rfl), kept_all fun out => rereadTempo_unset (left 1 _ rfl out),
    kept_all (left 2 _ rfl), kept_all fun out => Content.mapTempos_empty (left 3 _ rfl out)]
  rfl

/-- A subsection is read if its type is there and what it holds fits, and is refused if not. The type may stand at
any place, so that it is told apart from the other fields first. -/
theorem outcome (depth : Nat) (b : Subsection) (form : b.Form lacking value) :
    TextOutcome lacking (b.Form False value) value (readJson (depth + 6)) (b.mapTempos rereadTempo) := by
  obtain ⟨fields, rfl, arranged⟩ := form
  have own : "type" ∉ b.heldSlots.map Slot.key := by simp [heldSlots, Slot.optional]
  have served := serves lacking depth b
  obtain ⟨heldArranged, tag, once, typed⟩ := (arranges_cons own).mp arranged
  have written {entries : List (Datum × Datum)} {layout : Layout} (spaced : layout.Spaced) (outer : Nat)
      (holds : Holds (depth + 5) (without "type" fields) entries) :=
    typed_sets b.content (holds layout spaced (outer + 1)) tag once (fun _ => rfl) []
  rcases served.object pick_all heldArranged with ⟨strict, all, fills, complete⟩ | ⟨lack, breaks⟩
  · obtain ⟨entries, taken, holds⟩ := fills.entries complete
    by_cases here : "type" ∈ fields.map Prod.fst
    · refine Or.inl ⟨⟨fields, rfl, (arranges_cons own).mpr ⟨strict, tag, once, absurd here⟩⟩, ?_⟩
      intro layout spaced outer
      obtain ⟨final, sets, isTyped, _⟩ := written spaced outer holds
      rw [isTyped here, List.append_nil] at sets
      rw [write_object]
      exact readJson_object spaced sets taken outer
    · refine Or.inr ⟨typed here, fun layout spaced outer => ?_⟩
      obtain ⟨final, sets, _, untyped⟩ := written spaced outer holds
      rw [untyped here, List.append_nil] at sets
      rw [write_object]
      exact readJson_stops spaced sets (fun kind known => absurd known.symm (Option.some_ne_none kind)) outer
  · obtain ⟨entries, refused, holds⟩ := breaks.entries (served.readable heldArranged)
    refine Or.inr ⟨lack, fun layout spaced outer => ?_⟩
    obtain ⟨final, sets, isTyped, untyped⟩ := written spaced outer holds
    rw [List.append_nil] at sets
    rw [write_object]
    refine readJson_stops spaced sets (fun kind known => ?_) outer
    by_cases here : "type" ∈ fields.map Prod.fst
    · cases (isTyped here).symm.trans known
      exact refused
    · cases (untyped here).symm.trans known

end Subsection

end Subsections

section Documents

variable {lacking : Prop} {value : Json}

def Section.pick (s : Section) (seen : List Nat) : Section :=
  ⟨kept seen 0 s.id "", kept seen 1 s.title "", kept seen 2 (s.mapTempos rereadTempo).subsections []⟩

/-- A section is read field by field as the text goes, so that a refused subsection refuses it at once. -/
theorem Section.outcome (depth : Nat) (s : Section) (form : s.Form lacking value) :
    TextOutcome lacking (s.Form False value) value (readRecord Section.jsonSchema {} (depth + 8))
      (s.mapTempos rereadTempo) := by
  have subsections {value : Json} (listed : ListOf (Subsection.Form lacking) s.subsections value) :
      TextOutcome lacking (ListOf (Subsection.Form False) s.subsections value) value
        (readListOf Subsection.readJson (depth + 7)) (s.subsections.map (Subsection.mapTempos rereadTempo)) :=
    .list Subsection.Form (fun b _ _ form => Subsection.outcome depth b form) listed
  have serves : Serves lacking Section.jsonSchema (TextSets (depth + 7)) (TextFails (depth + 7)) s.pick 0 s.slots := by
    refine .cons (.text (fun _ => .fixed (Loads.text _)) rfl rfl (fun _ => by simp [pick, kept]) fun may => may) ?_
    refine .cons (.text (fun _ => .fixed (Loads.text _)) rfl rfl (fun _ => by simp [pick, kept]) fun may => may) ?_
    refine .cons (.nested (fun _ => subsections) rfl rfl (fun _ => by simp [pick, kept, mapTempos]) fun may => may) ?_
    exact .nil rfl
  refine .object serves (fun all left => ?_) form
  have data (out : 2 ∉ all) : (s.mapTempos rereadTempo).subsections = [] := List.map_eq_nil_iff.mpr (left 2 _ rfl out)
  rw [pick, kept_all (fun out => (left 0 _ rfl out).elim), kept_all (left 1 _ rfl), kept_all data]
  rfl

def ProgressionEntry.pick (e : ProgressionEntry) (seen : List Nat) : ProgressionEntry :=
  ⟨kept seen 0 e.id "", kept seen 1 e.sectionId "", kept seen 2 e.title "", kept seen 3 e.repetitions 0⟩

theorem ProgressionEntry.outcome (depth : Nat) (e : ProgressionEntry) (form : e.Form lacking value) :
    TextOutcome lacking (e.Form False value) value (readRecord ProgressionEntry.jsonSchema {} (depth + 1)) e := by
  have serves : Serves lacking ProgressionEntry.jsonSchema (TextSets depth) (TextFails depth) e.pick 0 e.slots := by
    refine .cons (.text (fun _ => .fixed (Loads.text _)) rfl rfl (fun _ => by simp [pick, kept]) fun may => may) ?_
    refine .cons (.text (fun _ => .fixed (Loads.text _)) rfl rfl (fun _ => by simp [pick, kept]) fun may => may) ?_
    refine .cons (.text (fun _ => .fixed (Loads.text _)) rfl rfl (fun _ => by simp [pick, kept]) fun may => may) ?_
    refine .cons (.text (fun _ => .fixed (Loads.count _)) rfl rfl (fun _ => by simp [pick, kept]) fun may => may) ?_
    exact .nil rfl
  refine .object serves (fun all left => ?_) form
  rw [pick, kept_all (left 0 _ rfl), kept_all (fun out => (left 1 _ rfl out).elim), kept_all (left 2 _ rfl),
    kept_all (left 3 _ rfl)]

/-- The tempo of a document has the same forms as the others, read straight from the text. -/
theorem tempo_text_outcome {bpm : Option Float} (form : TempoForm bpm value) :
    TextOutcome lacking (TempoForm bpm value) value readTempo (rereadTempo bpm) := by
  refine Or.inl ⟨form, ?_⟩
  rcases form with rfl | ⟨rfl, rfl | rfl⟩
  · exact tempo_loads bpm
  · rw [rereadTempo_none]
    exact fun layout _ outer => readTempo_unset layout outer
  · rw [rereadTempo_none]
    intro layout _ outer
    rw [write]
    exact readTempo_null

def Document.pick (d : Document) (seen : List Nat) : Document :=
  ⟨kept seen 0 d.title "", kept seen 1 (rereadTempo d.bpm) none,
    kept seen 2 (d.mapTempos rereadTempo).sections [], kept seen 3 d.progression []⟩

/-- A form of a document is read with each tempo as it is reread, or is refused where it lacks a field. -/
theorem Document.form_outcome (depth : Nat) (d : Document) (form : d.Form lacking value) :
    TextOutcome lacking (d.Form False value) value (readRecord Document.jsonSchema {} (depth + 10))
      (d.mapTempos rereadTempo) := by
  have sections {value : Json} (listed : ListOf (Section.Form lacking) d.sections value) :
      TextOutcome lacking (ListOf (Section.Form False) d.sections value) value
        (readListOf (readRecord Section.jsonSchema {}) (depth + 9))
        (d.sections.map (Section.mapTempos rereadTempo)) :=
    .list Section.Form (fun s _ _ form => Section.outcome depth s form) listed
  have progression {value : Json} (listed : ListOf (ProgressionEntry.Form lacking) d.progression value) :
      TextOutcome lacking (ListOf (ProgressionEntry.Form False) d.progression value) value
        (readListOf (readRecord ProgressionEntry.jsonSchema {}) (depth + 9)) (d.progression.map fun e => e) :=
    .list ProgressionEntry.Form (fun e _ _ form => ProgressionEntry.outcome (depth + 7) e form) listed
  simp only [List.map_id'] at progression
  have serves : Serves lacking Document.jsonSchema (TextSets (depth + 9)) (TextFails (depth + 9)) d.pick 0 d.slots := by
    refine .cons (.text (fun _ => .fixed (Loads.text _)) rfl rfl (fun _ => by simp [pick, kept]) fun may => may) ?_
    refine .cons (.text (fun _ => tempo_text_outcome) rfl rfl
      (fun _ => by simp [pick, kept]) fun may => may) ?_
    refine .cons (.nested (fun _ => sections) rfl rfl (fun _ => by simp [pick, kept, mapTempos]) fun may => may) ?_
    refine .cons (.nested (fun _ => progression) rfl rfl (fun _ => by simp [pick, kept]) fun may => may) ?_
    exact .nil rfl
  refine .object serves (fun all left => ?_) form
  have data (out : 2 ∉ all) : (d.mapTempos rereadTempo).sections = [] := List.map_eq_nil_iff.mpr (left 2 _ rfl out)
  rw [pick, kept_all (left 0 _ rfl), kept_all fun out => rereadTempo_unset (left 1 _ rfl out), kept_all data,
    kept_all (left 3 _ rfl)]
  rfl

/-- Whole tempos come back as they are, and those that are not finite come back unset. Of other tempos nothing is
said here. -/
theorem AllWhole.rereads {d : Document} (whole : AllWhole d.tempos) :
    d.mapTempos rereadTempo = d.mapTempos reloadedTempo := by
  refine Document.mapTempos_congr fun bpm member => ?_
  cases bpm with
  | none => exact rereadTempo_none
  | some bpm => exact (whole bpm member).rereads

theorem Document.outcome (depth : Nat) {d : Document} (whole : AllWhole d.tempos) (form : d.Form lacking value) :
    TextOutcome lacking (d.Form False value) value (readRecord Document.jsonSchema {} (depth + 10))
      (d.mapTempos reloadedTempo) := by
  rw [← whole.rereads]
  exact form_outcome depth d form

end Documents

namespace Document

variable {d : Document} {layout : Json.Layout} {value : Json}

theorem load_read (reads : Reads (readRecord jsonSchema {} nesting) (write layout 0 value) d) :
    loadJson (String.ofList (write layout 0 value)) = .ok d := by
  have read := reads.bare ends_nil
  rw [List.append_nil] at read
  rw [loadJson, String.toList_ofList, ofJson, readWhole, read]
  rfl

/-- A text that the reader of the record refuses is an error about the document. Its place and message are left
open. -/
theorem load_refused (refuses : Refuses (readRecord jsonSchema {} nesting) (write layout 0 value)) :
    ∃ line column message,
      loadJson (String.ofList (write layout 0 value)) = .error (.document line column message) := by
  obtain ⟨fault, refused⟩ := refuses.bare ends_nil
  rw [List.append_nil] at refused
  rw [loadJson, String.toList_ofList, ofJson, readWhole, refused]
  exact ⟨_, _, _, rfl⟩

/-- A stored document is read again, whatever the layout. -/
theorem load_stored (d : Document) (spaced : layout.Spaced) :
    load (String.ofList (write layout 0 d.json)) = .ok (d.mapTempos rereadTempo) := by
  have brace : load (String.ofList (write layout 0 d.json)) = loadJson (String.ofList (write layout 0 d.json)) := by
    unfold load
    rw [String.toList_ofList, Document.json, write_object]
    rfl
  rw [brace]
  rcases Document.form_outcome 117 d (d.form_json : d.Form False d.json) with ⟨_, loads⟩ | ⟨lack, _⟩
  · exact load_read (loads layout spaced 0)
  · exact lack.elim

theorem load_written (whole : AllWhole d.tempos) (spaced : layout.Spaced) :
    load (String.ofList (write layout 0 d.json)) = .ok (d.mapTempos reloadedTempo) := by
  rw [load_stored d spaced, whole.rereads]

end Document

end Tablature
