import Mathlib.Data.List.DropRight
import Tablature.Document.Load
import Tablature.Proofs.Json.Ensuring
import Tablature.Proofs.Linting
import Tablature.Proofs.TempoMap
import Tablature.Proofs.Yaml.Ensuring

namespace Tablature

/-- The tempo is not set, or it is not the number that stands for that. -/
def IsOwn (bpm : Option Float) : Prop :=
  ∀ x, bpm = some x → (x == unsetTempo) = false

/-- What `Document.tempos` and its like list: each tempo that is set is one of its own. -/
def AllOwn (tempos : List (Option Float)) : Prop :=
  ∀ bpm ∈ tempos, IsOwn bpm

theorem isOwn_none : IsOwn none := nofun

/-- Every reader of a tempo ends here, and here the number is taken for no tempo. -/
theorem storedTempo_isOwn (x : Float) : IsOwn (storedTempo x) := by
  unfold storedTempo
  split
  · exact isOwn_none
  · next other =>
    rintro y ⟨rfl⟩
    exact Bool.eq_false_iff.mpr other

theorem bind_isOwn (bpm : Option Float) : IsOwn (bpm.bind storedTempo) := by
  cases bpm with
  | none => exact isOwn_none
  | some x => exact storedTempo_isOwn x

section Tempos

theorem Datum.tempo_own (datum : Datum) : Ensures IsOwn (Datum.tempo datum) :=
  .after _ fun bpm => .ok (bind_isOwn bpm)

/-- A null is no tempo, and any number goes through `storedTempo`. What the number was before is not asked. -/
theorem Json.readTempo_own : Yields IsOwn Json.readTempo := by
  intro cs
  unfold readTempo
  split
  · exact .map fun _ _ => isOwn_none
  · exact .after _ fun result => .ok (storedTempo_isOwn result.1)

theorem Yaml.readTempo_own (spot : Spot) : Yields IsOwn (Yaml.readTempo spot) :=
  fun _ => .after _ fun result => .ok (bind_isOwn result.1)

end Tempos

section Subsections

theorem ChordSequence.ofDatum_own (datum : Datum) :
    Ensures (fun q => IsOwn q.bpm) (ChordSequence.ofDatum datum) := by
  refine Datum.record_ensures (I := fun q : ChordSequence => IsOwn q.bpm) (fun field member => ?_) .counted
    isOwn_none datum
  simp only [schema, List.mem_cons, List.not_mem_nil, or_false] at member
  rcases member with rfl | rfl | rfl | rfl | rfl
  · exact fun _ _ own => .map fun _ _ => own
  · exact fun _ _ own => .map fun _ _ => own
  · exact fun _ datum _ => .map fun bpm read => Datum.tempo_own datum bpm read
  · exact fun _ _ own => .map fun _ _ => own
  · exact fun _ _ own => .map fun _ _ => own

/-- Only chord sequences bring tempos into a subsection. The measure lines of a tab are texts and stay so. -/
theorem SubsectionKind.content_own (kind : SubsectionKind) (datum : Datum) :
    Ensures (fun c => AllOwn c.tempos) (kind.content datum) := by
  cases kind with
  | tab => exact .map fun _ _ _ member => nomatch member
  | chord =>
    refine .map fun sequences read bpm member => ?_
    obtain ⟨q, inside, rfl⟩ := List.mem_map.mp member
    exact Datum.listOf_ensures ChordSequence.ofDatum_own datum sequences read q inside

theorem Subsection.tempos_own {b : Subsection} : AllOwn b.tempos ↔ IsOwn b.bpm ∧ AllOwn b.content.tempos :=
  List.forall_mem_cons

namespace Subsection

/-- Of the four fields two matter here. The tempo sets one of its own, and the content brings only such ones; ids
and repetitions change none. -/
theorem ofDatum_own (kind : SubsectionKind) (datum : Datum) :
    Ensures (fun b => AllOwn b.tempos) (ofDatum kind datum) := by
  have empty : AllOwn kind.noContent.tempos := by
    cases kind <;> exact fun _ member => nomatch member
  have start : AllOwn (Subsection.mk "" none 0 kind.noContent).tempos := tempos_own.mpr ⟨isOwn_none, empty⟩
  refine Datum.record_ensures (I := fun b : Subsection => AllOwn b.tempos) (fun field member => ?_) .counted
    start datum
  simp only [schema, List.mem_cons, List.not_mem_nil, or_false] at member
  rcases member with rfl | rfl | rfl | rfl
  · exact fun _ _ own => .map fun _ _ => own
  · exact fun _ datum own => .map fun bpm read =>
      tempos_own.mpr ⟨Datum.tempo_own datum bpm read, (tempos_own.mp own).2⟩
  · exact fun _ _ own => .map fun _ _ => own
  · exact fun _ datum own => .map fun content read =>
      tempos_own.mpr ⟨(tempos_own.mp own).1, kind.content_own datum content read⟩

theorem ofHeld_own (kind : SubsectionKind) (datum : Datum) (rest : List Char) :
    Ensures (fun result => AllOwn result.1.tempos) (ofHeld kind datum rest) := by
  unfold ofHeld
  split
  · next read => exact .ok (ofDatum_own kind datum _ read)
  · exact .error _

/-- The object and the list that a subsection may be written as differ in how the kind is found. Either way the rest
is held as a datum, and read from there. -/
theorem readJson_own (depth : Nat) : Yields (fun b => AllOwn b.tempos) (readJson depth) := by
  intro cs
  unfold readJson
  split
  · exact .error _
  · split
    · exact .error _
    · refine .after _ fun result => ?_
      dsimp only
      split
      · exact ofHeld_own _ _ _
      · exact .error _
  · split
    · exact .error _
    · refine .after _ fun next => ?_
      split
      · exact .error _
      · exact .after _ fun _ => .after _ fun _ => ofHeld_own _ _ _
  · exact .after _ fun _ => .error _

theorem readYaml_own (spot : Yaml.Spot) : Yields (fun b => AllOwn b.tempos) (readYaml spot) :=
  fun _ => .after _ fun result => (ofDatum_own result.1.1 result.1.2).mapError.bind fun _ own => .ok own

end Subsection

end Subsections

section Documents

/-- A section has no tempo of its own, only those of its subsections. -/
theorem Section.tempos_own {s : Section} : AllOwn s.tempos ↔ ∀ b ∈ s.subsections, AllOwn b.tempos := by
  unfold AllOwn Section.tempos
  simp only [List.mem_flatMap]
  exact ⟨fun own b inside bpm inB => own bpm ⟨b, inside, inB⟩, fun own bpm ⟨b, inside, inB⟩ => own b inside bpm inB⟩

theorem Document.tempos_own {d : Document} :
    AllOwn d.tempos ↔ IsOwn d.bpm ∧ ∀ s ∈ d.sections, AllOwn s.tempos := by
  unfold AllOwn Document.tempos
  simp only [List.forall_mem_cons, List.mem_flatMap]
  exact and_congr_right fun _ =>
    ⟨fun own s inside bpm inS => own bpm ⟨s, inside, inS⟩, fun own bpm ⟨s, inside, inS⟩ => own s inside bpm inS⟩

section Formats

variable {κ ι ε : Type} (format : Format κ ι ε)

/-- A section, read in any format whose subsections are read with tempos of their own. -/
theorem Section.read_own (subsections : ∀ place, Yields (fun b => AllOwn b.tempos) (format.subsection place))
    (place : κ) : Yields (fun s => AllOwn s.tempos) (format.record format.sectionSchema {} place) := by
  have empty : AllOwn ({} : Section).tempos := tempos_own.mpr (List.forall_mem_nil _)
  refine format.record_yields (I := fun s : Section => AllOwn s.tempos) (fun field member => ?_) empty place
  simp only [Format.sectionSchema, List.mem_cons, List.not_mem_nil, or_false] at member
  rcases member with rfl | rfl | rfl <;> dsimp only
  · exact Format.into_keeps_beside fun _ _ own => own
  · exact Format.into_keeps_beside fun _ _ own => own
  · exact Format.into_keeps (format.listOf_yields subsections) fun _ _ _ set => tempos_own.mpr set

/-- A document, read in any format whose tempos and subsections are so read. The formats differ only in these. -/
theorem Document.read_own (tempos : ∀ place, Yields IsOwn (format.tempo place))
    (subsections : ∀ place, Yields (fun b => AllOwn b.tempos) (format.subsection place)) (source : List Char) :
    Ensures (fun d => AllOwn d.tempos) (format.document source) := by
  have empty : AllOwn ({} : Document).tempos := tempos_own.mpr ⟨isOwn_none, List.forall_mem_nil _⟩
  refine format.whole_ensures (P := fun d : Document => AllOwn d.tempos) (fun place => ?_) source
  refine format.record_yields (I := fun d : Document => AllOwn d.tempos) (fun field member => ?_) empty place
  simp only [Format.documentSchema, List.mem_cons, List.not_mem_nil, or_false] at member
  rcases member with rfl | rfl | rfl | rfl <;> dsimp only
  · exact Format.into_keeps_beside fun _ _ own => own
  · exact Format.into_keeps tempos fun _ _ own set => tempos_own.mpr ⟨set, (tempos_own.mp own).2⟩
  · have sections := format.listOf_yields (Section.read_own format subsections)
    exact Format.into_keeps sections fun _ _ own set => tempos_own.mpr ⟨(tempos_own.mp own).1, set⟩
  · exact Format.into_keeps_beside fun _ _ own => own

end Formats

/-- The number for "no tempo set" is in no document that was read, whatever the format. -/
theorem Document.load_own (source : String) : Ensures (fun d => AllOwn d.tempos) (load source) := by
  have json := read_own Json.format (fun _ => Json.readTempo_own) Subsection.readJson_own
  have yaml := read_own Yaml.format Yaml.readTempo_own Subsection.readYaml_own
  rw [Json.format_document] at json
  rw [Yaml.format_document] at yaml
  unfold load
  split
  · exact (json _).mapError
  · exact (yaml _).mapError

end Documents

section Spellings

variable {σ : Type}

theorem storedTempo_unset {x : Float} (unset : (x == unsetTempo) = true) : storedTempo x = none :=
  if_pos unset

/-- Whatever reads as the number for "no tempo set" clears the field. -/
def Datum.Unsets (set : Setter σ) (clear : σ → σ) : Prop :=
  ∀ record datum x, Datum.number datum = .ok x → (x == unsetTempo) = true → set record datum = .ok (clear record)

/-- The value need not be written as `unsetTempo` is: any number that compares as the same is taken for it. -/
theorem Datum.into_tempo_unsets (set : σ → Option Float → σ) : Unsets (Datum.into tempo set) (set · none) := by
  intro record datum x read unset
  have present : datum.optional number = .ok (some x) := by
    cases datum with
    | null => cases read
    | _ => exact congrArg (some <$> ·) read
  have none : tempo datum = .ok none := by
    rw [tempo, present]
    exact congrArg Except.ok (storedTempo_unset unset)
  rw [Datum.into, none]
  rfl

def Json.Unsets (set : Setter σ) (clear : σ → σ) : Prop :=
  ∀ depth record cs x rest, readNumberAs Datum.number "f64" cs = .ok (x, rest) → (x == unsetTempo) = true →
    set depth record cs = .ok (clear record, rest)

/-- The reader of a tempo passes over blanks to look for a null, and only then reads a number. What reads as a
number before them reads as the same number after them. -/
theorem Json.into_tempo_unsets (set : σ → Option Float → σ) : Unsets (Json.into readTempo set) (set · none) := by
  intro depth record cs x rest read unset
  have none : readTempo cs = .ok (none, rest) := by
    unfold readTempo
    split
    · next word start =>
      -- A null is no number.
      unfold readNumberAs at read
      rw [start] at read
      cases read
    · have settled : skipSpace (skipSpace cs) = skipSpace cs := List.dropWhile_idempotent _ _
      have again : readNumberAs Datum.number "f64" (skipSpace cs) = .ok (x, rest) := by
        unfold readNumberAs at read ⊢
        rw [settled]
        exact read
      rw [again]
      exact congrArg (fun bpm => Except.ok (bpm, rest)) (storedTempo_unset unset)
  rw [Json.into, none]
  rfl

def Yaml.Unsets (set : Setter σ) (clear : σ → σ) : Prop :=
  ∀ spot record u x rest, readOptional Yaml.readFloat spot u = .ok (some x, rest) → (x == unsetTempo) = true →
    set spot record u = .ok (clear record, rest)

theorem Yaml.into_tempo_unsets (set : σ → Option Float → σ) : Unsets (Yaml.into readTempo set) (set · none) := by
  intro spot record u x rest read unset
  have none : readTempo spot u = .ok (none, rest) := by
    rw [readTempo, read]
    exact congrArg (fun bpm => Except.ok (bpm, rest)) (storedTempo_unset unset)
  rw [Yaml.into, none]
  rfl

/-- Among the fields of the schema only one is named `bpm`, so that the names of the others refute themselves. -/
theorem ChordSequence.schema_unsets : ∀ field ∈ ChordSequence.schema.fields, field.name = "bpm" →
    Datum.Unsets field.read fun q => { q with bpm := none } := by
  simp only [schema, List.forall_mem_cons, List.not_mem_nil, String.reduceEq, false_imp_iff, true_imp_iff,
    implies_true, and_true, true_and]
  exact Datum.into_tempo_unsets _

theorem Subsection.schema_unsets (kind : SubsectionKind) : ∀ field ∈ (Subsection.schema kind).fields,
    field.name = "bpm" → Datum.Unsets field.read fun b => { b with bpm := none } := by
  simp only [schema, List.forall_mem_cons, List.not_mem_nil, String.reduceEq, false_imp_iff, true_imp_iff,
    implies_true, and_true, true_and]
  exact Datum.into_tempo_unsets _

theorem Document.jsonSchema_unsets : ∀ field ∈ Document.jsonSchema.fields, field.name = "bpm" →
    Json.Unsets field.read fun d => { d with bpm := none } := by
  simp only [jsonSchema, List.forall_mem_cons, List.not_mem_nil, String.reduceEq, false_imp_iff, true_imp_iff,
    implies_true, and_true, true_and]
  exact Json.into_tempo_unsets _

theorem Document.yamlSchema_unsets : ∀ field ∈ Document.yamlSchema.fields, field.name = "bpm" →
    Yaml.Unsets field.read fun d => { d with bpm := none } := by
  simp only [yamlSchema, List.forall_mem_cons, List.not_mem_nil, String.reduceEq, false_imp_iff, true_imp_iff,
    implies_true, and_true, true_and]
  exact Yaml.into_tempo_unsets _

end Spellings

section Lint

/-- What is wrong with a tempo is not that it is the number for "no tempo set". -/
inductive Problem.OfOwnTempo : Problem → Prop
  | unusable (owner : TempoOwner) {bpm : Float} (own : (bpm == unsetTempo) = false) :
      OfOwnTempo (.unusableTempo owner bpm)
  | unreadable {slot : List Char} (noNumber : readFloat slot = none) :
      OfOwnTempo (.unreadableTempo (String.ofList slot))

variable {p : Diagnostic}

/-- A complaint about a tempo quotes it, so that what holds of the tempo holds of the complaint. -/
theorem lintTempo_own {owner : TempoOwner} {location : Option Location} {bpm : Option Float} (own : IsOwn bpm)
    (member : p ∈ lintTempo owner location bpm) : p.problem.OfOwnTempo := by
  unfold lintTempo at member
  split at member
  · next bpm =>
    split at member
    · cases member
    · cases List.mem_singleton.mp member
      exact .unusable owner (own bpm rfl)
  · cases member

/-- The tempo of a measure line is a text until it is linted. It goes through `storedTempo` then, as the others did
when they were read. -/
theorem Column.lintMeasureLine_own {c : Column} {location : Location} (member : p ∈ c.lintMeasureLine location) :
    p.problem.OfOwnTempo := by
  unfold lintMeasureLine at member
  split at member
  · cases member
  · split at member
    · exact lintTempo_own (storedTempo_isOwn _) member
    · next noNumber =>
      cases List.mem_singleton.mp member
      exact .unreadable noNumber

theorem Column.lint_own {c : Column} {location : Location} (member : p ∈ c.lint location)
    (tempo : p.kind = .invalidBpm) : p.problem.OfOwnTempo := by
  unfold lint at member
  split at member
  · exact lintMeasureLine_own member
  · split at member
    · cases member
    · cases List.mem_singleton.mp member
      cases tempo

theorem ChordSequence.lint_own {q : ChordSequence} (own : IsOwn q.bpm) {start : Location}
    (member : p ∈ q.lint start) (tempo : p.kind = .invalidBpm) : p.problem.OfOwnTempo := by
  rw [lint_eq, List.mem_append, List.mem_append, List.mem_append] at member
  rcases member with ((set | length) | strum) | chords
  · exact lintTempo_own own set
  · cases tempo.symm.trans (StrummingPattern.lintLength_kind length)
  · cases tempo.symm.trans (lintStrums_kind strum)
  · cases tempo.symm.trans (lintChords_kind chords)

theorem Subsection.lint_own {b : Subsection} (own : AllOwn b.tempos) {s t : Nat} (member : p ∈ b.lint s t)
    (tempo : p.kind = .invalidBpm) : p.problem.OfOwnTempo := by
  obtain ⟨ownBpm, ownContent⟩ := tempos_own.mp own
  unfold lint at member
  rcases List.mem_append.mp member with set | inContent
  · exact lintTempo_own ownBpm set
  · cases content : b.content with
    | tab columns =>
      rw [content] at inContent
      obtain ⟨c, column, _, inColumn⟩ := mem_flatten_mapIdx.mp inContent
      exact Column.lint_own inColumn tempo
    | chords sequences =>
      rw [content] at inContent ownContent
      obtain ⟨i, q, atQ, inSequence⟩ := mem_flatten_mapIdx.mp inContent
      have ownSequence : IsOwn q.bpm := ownContent _ (List.mem_map.mpr ⟨q, List.mem_of_getElem? atQ, rfl⟩)
      exact ChordSequence.lint_own ownSequence inSequence tempo

/-- Whatever part of the document a complaint about a tempo is about, the tempo in it is one of its own. -/
theorem Document.lint_own {d : Document} (own : AllOwn d.tempos) (member : p ∈ d.lint)
    (tempo : p.kind = .invalidBpm) : p.problem.OfOwnTempo := by
  obtain ⟨ownBpm, ownSections⟩ := tempos_own.mp own
  rcases mem_lint.mp member with set | progression | ⟨s, t, unit, b, atUnit, atB, inB⟩
  · exact lintTempo_own ownBpm set
  · obtain ⟨entry, _, _, rfl⟩ := mem_lintProgression.mp progression
    cases tempo
  · have ownUnit := ownSections unit (List.mem_of_getElem? atUnit)
    exact Subsection.lint_own (Section.tempos_own.mp ownUnit b (List.mem_of_getElem? atB)) inB tempo

end Lint

namespace Document

/-- The number for "no tempo set" never comes out of a text: no tempo of the document is that number, no
problem with a tempo is about it, and wherever a tempo may stand, whatever reads as that number sets none. -/
theorem unset_never_loaded {source : String} {d : Document} (loaded : load source = .ok d) :
    (∀ bpm, some bpm ∈ d.tempos → (bpm == unsetTempo) = false) ∧
      (∀ p ∈ d.lint, p.kind = .invalidBpm → p.problem.OfOwnTempo) ∧
      (∀ field ∈ jsonSchema.fields, field.name = "bpm" → Json.Unsets field.read fun d => { d with bpm := none }) ∧
      (∀ field ∈ yamlSchema.fields, field.name = "bpm" → Yaml.Unsets field.read fun d => { d with bpm := none }) ∧
      (∀ kind, ∀ field ∈ (Subsection.schema kind).fields, field.name = "bpm" →
        Datum.Unsets field.read fun b => { b with bpm := none }) ∧
      ∀ field ∈ ChordSequence.schema.fields, field.name = "bpm" →
        Datum.Unsets field.read fun q => { q with bpm := none } := by
  have own := load_own source d loaded
  refine ⟨fun bpm member => own (some bpm) member bpm rfl, fun p member tempo => lint_own own member tempo,
    jsonSchema_unsets, yamlSchema_unsets, Subsection.schema_unsets, ChordSequence.schema_unsets⟩

/-- A text with two spellings of the number for "no tempo set", and another tempo that cannot be played. -/
def unsetSpelled : String :=
  "\x7b\"bpm\": -1.0, \"sections\": [\x7b\"id\": \"a\", \"data\": [\x7b\"type\": \"chord\", \"bpm\": -2, \"data\": " ++
    "[\x7b\"bpm\": -10e-1, \"strummingPattern\": \x7b\"noteLength\": \"quarter\"\x7d\x7d]\x7d]\x7d]\x7d"

theorem unset_never_loaded_spelled : ∃ d, load unsetSpelled = .ok d ∧
    d.tempos.map Option.isSome = [false, true, false] ∧ d.lint.map Diagnostic.kind = [.invalidBpm] ∧
    (∀ bpm, some bpm ∈ d.tempos → (bpm == unsetTempo) = false) ∧
    ∀ p ∈ d.lint, p.kind = .invalidBpm → p.problem.OfOwnTempo := by
  have evaluated : (load unsetSpelled).toOption.map (fun d =>
      (d.tempos.map Option.isSome, d.lint.map Diagnostic.kind)) = some ([false, true, false], [.invalidBpm]) := by
    decide +kernel
  obtain ⟨d, found, result⟩ := Option.map_eq_some_iff.mp evaluated
  have loaded : load unsetSpelled = .ok d := by
    cases outcome : load unsetSpelled with
    | error e =>
      rw [outcome] at found
      cases found
    | ok read =>
      rw [outcome] at found
      exact congrArg Except.ok (Option.some.inj found)
  obtain ⟨tempos, problems⟩ := Prod.mk.inj result
  have settled := unset_never_loaded loaded
  exact ⟨d, loaded, tempos, problems, settled.1, settled.2.1⟩

end Document

end Tablature
