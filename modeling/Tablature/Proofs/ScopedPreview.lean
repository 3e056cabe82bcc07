import Tablature.Proofs.DefaultProgression
import Tablature.Proofs.Reports
import Tablature.Proofs.TempoCascade

namespace Tablature

/-- Nothing is at the address: one of its indices leads out of the document, or into something without chord
sequences. -/
inductive Document.Misses (d : Document) : Address → Prop
  | outsideDocument {s : Nat} {t? i? : Option Nat} (outside : d.sections.length ≤ s) : Misses d ⟨s, t?, i?⟩
  | noSubsection {s i : Nat} : Misses d ⟨s, none, some i⟩
  | outsideSection {s t : Nat} {i? : Option Nat} {unit : Section} (atUnit : d.sections[s]? = some unit)
      (outside : unit.subsections.length ≤ t) : Misses d ⟨s, some t, i?⟩
  | inTab {s t i : Nat} {unit : Section} {b : Subsection} {columns : List Column}
      (atUnit : d.sections[s]? = some unit) (atB : unit.subsections[t]? = some b)
      (content : b.content = .tab columns) : Misses d ⟨s, some t, some i⟩
  | outsideChords {s t i : Nat} {unit : Section} {b : Subsection} {sequences : List ChordSequence}
      (atUnit : d.sections[s]? = some unit) (atB : unit.subsections[t]? = some b)
      (content : b.content = .chords sequences) (outside : sequences.length ≤ i) : Misses d ⟨s, some t, some i⟩

/-- The location is in what is at the address. -/
def Address.Covers (address : Address) (l : Location) : Prop :=
  l.sectionIndex = address.sectionIndex ∧
  (∀ t, address.subsectionIndex = some t → l.subsectionIndex = t) ∧
  ∀ i, address.sequenceIndex = some i → l.sequenceIndex = some i

/-- The location is that of a column or a strum of the document. -/
inductive Document.HasPlace (d : Document) : Location → Prop
  | column {s t c : Nat} {unit : Section} {b : Subsection} {columns : List Column}
      (atUnit : d.sections[s]? = some unit) (atB : unit.subsections[t]? = some b)
      (content : b.content = .tab columns) (inside : c < columns.length) : HasPlace d (.column s t c)
  | strum {s t i k : Nat} {unit : Section} {b : Subsection} {sequences : List ChordSequence} {q : ChordSequence}
      (atUnit : d.sections[s]? = some unit) (atB : unit.subsections[t]? = some b)
      (content : b.content = .chords sequences) (atQ : sequences[i]? = some q)
      (inside : k < q.pattern.strums.length) : HasPlace d (.strum s t i k)

/-- What a preview reads of a document besides its tempo: of a section that is not played as a whole only the texts,
and of a subsection of which one chord sequence is played only the id and the tempo. -/
inductive Excerpt where
  | wholeSection (s : Nat) (unit : Section)
  | wholeSubsection (s : Nat) (id title : String) (t : Nat) (b : Subsection)
  | wholeSequence (s : Nat) (id title : String) (t : Nat) (subsectionId : String) (bpm : Float) (i : Nat)
      (q : ChordSequence)

def Program.excerpt? (global : Float) : Program → Option Excerpt
  | progression _ => none
  | oneSection s unit => some (.wholeSection s unit)
  | oneSubsection s unit t b => some (.wholeSubsection s unit.id unit.title t b)
  | oneSequence s unit t b i q =>
    some (.wholeSequence s unit.id unit.title t b.id (resolveTempo b.bpm global) i q)

def Document.excerpt? (d : Document) (options : Options) (address : Address) : Option Excerpt :=
  (d.program? (.part address)).bind (Program.excerpt? (d.globalTempo options))

def Excerpt.part (cap : Option Nat) (global : Float) : Excerpt → Part SectionPass
  | wholeSection s unit => (unit.body cap global s).enclose fun passes => ⟨unit.id, unit.title, passes⟩
  | wholeSubsection s id title t b => (b.part cap global s t).enclose fun passes => ⟨id, title, passes⟩
  | wholeSequence s id title t subsectionId bpm i q =>
    ((q.part cap bpm s t i).enclose fun passes => ⟨subsectionId, bpm, .chords passes⟩).enclose fun passes =>
      ⟨id, title, passes⟩

theorem Subsection.cues_location {global : Float} {s t : Nat} {b : Subsection} {cue : Cue}
    (member : cue ∈ b.cues global s t) {place : Location × Float} (at' : cue.place? = some place) :
    place.1.sectionIndex = s ∧ place.1.subsectionIndex = t := by
  replace member := mem_eachPass.mp member
  cases content : b.content with
  | tab columns =>
    rw [content] at member
    obtain ⟨c, column, _, inColumn⟩ := mem_flatten_mapIdx.mp member
    rw [Column.cues_place inColumn at']
    exact ⟨rfl, rfl⟩
  | chords sequences =>
    rw [content] at member
    obtain ⟨i, q, _, inSequence⟩ := mem_flatten_mapIdx.mp member
    obtain ⟨k, _, rfl⟩ := ChordSequence.cues_place inSequence at'
    exact ⟨rfl, rfl⟩

theorem Section.cues_location {global : Float} {s : Nat} {unit : Section} {cue : Cue}
    (member : cue ∈ unit.cues global s) {place : Location × Float} (at' : cue.place? = some place) :
    place.1.sectionIndex = s := by
  obtain ⟨t, b, _, inB⟩ := mem_flatten_mapIdx.mp member
  exact (Subsection.cues_location inB at').1

theorem Cue.Origin.hasPlace {d : Document} {global : Float} {cue : Cue} (origin : cue.Origin d global)
    {place : Location × Float} (at' : cue.place? = some place) : d.HasPlace place.1 := by
  cases origin with
  | missing id => cases at'
  | column atUnit atB content atC member =>
    rw [Column.cues_place member at']
    exact .column atUnit atB content (List.getElem?_eq_some_iff.mp atC).1
  | sequence atUnit atB content atQ member =>
    obtain ⟨k, inside, rfl⟩ := ChordSequence.cues_place member at'
    exact .strum atUnit atB content atQ inside

namespace Document

variable {d : Document} {address : Address} {program : Program} {options : Options}

theorem PartAt.program? (part : d.PartAt address program) : d.program? (.part address) = some program := by
  cases part with
  | oneSection atUnit => simp only [Document.program?, atUnit, Option.bind_eq_bind, Option.bind_some]
  | oneSubsection atUnit atB =>
    simp only [Document.program?, atUnit, atB, Option.bind_eq_bind, Option.bind_some, Option.map_some]
  | oneSequence atUnit atB content atQ =>
    simp only [Document.program?, atUnit, atB, content, atQ, Option.bind_eq_bind, Option.bind_some, Option.map_some]

theorem misses_iff : d.Misses address ↔ d.program? (.part address) = none := by
  constructor
  · intro misses
    refine Option.eq_none_iff_forall_not_mem.mpr fun program member => ?_
    have part := program?_part (Option.mem_def.mp member)
    cases misses with
    | outsideDocument outside =>
      rw [← List.getElem?_eq_none_iff] at outside
      cases part with
      | oneSection atUnit => cases outside.symm.trans atUnit
      | oneSubsection atUnit atB => cases outside.symm.trans atUnit
      | oneSequence atUnit atB content atQ => cases outside.symm.trans atUnit
    | noSubsection => cases part
    | outsideSection here outside =>
      rw [← List.getElem?_eq_none_iff] at outside
      cases part with
      | oneSubsection atUnit atB =>
        cases here.symm.trans atUnit
        cases outside.symm.trans atB
      | oneSequence atUnit atB content atQ =>
        cases here.symm.trans atUnit
        cases outside.symm.trans atB
    | inTab here within isTab =>
      cases part with
      | oneSequence atUnit atB content atQ =>
        cases here.symm.trans atUnit
        cases within.symm.trans atB
        cases isTab.symm.trans content
    | outsideChords here within isChords outside =>
      rw [← List.getElem?_eq_none_iff] at outside
      cases part with
      | oneSequence atUnit atB content atQ =>
        cases here.symm.trans atUnit
        cases within.symm.trans atB
        cases isChords.symm.trans content
        cases outside.symm.trans atQ
  · intro lost
    have nothing (program : Program) (part : d.PartAt address program) : d.Misses address := by
      rw [part.program?] at lost
      cases lost
    obtain ⟨s, t?, i?⟩ := address
    cases atUnit : d.sections[s]? with
    | none => exact .outsideDocument (List.getElem?_eq_none_iff.mp atUnit)
    | some unit =>
      cases t? with
      | none =>
        cases i? with
        | none => exact nothing _ (.oneSection atUnit)
        | some i => exact .noSubsection
      | some t =>
        cases atB : unit.subsections[t]? with
        | none => exact .outsideSection atUnit (List.getElem?_eq_none_iff.mp atB)
        | some b =>
          cases i? with
          | none => exact nothing _ (.oneSubsection atUnit atB)
          | some i =>
            cases content : b.content with
            | tab columns => exact .inTab atUnit atB content
            | chords sequences =>
              cases atQ : sequences[i]? with
              | none => exact .outsideChords atUnit atB content (List.getElem?_eq_none_iff.mp atQ)
              | some q => exact nothing _ (.oneSequence atUnit atB content atQ)

theorem PartAt.covers (part : d.PartAt address program) {global : Float} {cue : Cue}
    (member : cue ∈ program.cues d global) {place : Location × Float} (at' : cue.place? = some place) :
    address.Covers place.1 := by
  cases part with
  | oneSection atUnit => exact ⟨Section.cues_location member at', nofun, nofun⟩
  | oneSubsection atUnit atB =>
    obtain ⟨inSection, inSubsection⟩ := Subsection.cues_location member at'
    refine ⟨inSection, fun t given => ?_, nofun⟩
    cases given
    exact inSubsection
  | oneSequence atUnit atB content atQ =>
    obtain ⟨k, _, rfl⟩ := ChordSequence.cues_place member at'
    exact ⟨rfl, fun t given => Option.some.inj given, fun i given => given⟩

theorem preview_covers (found : d.program? (.part address) = some program) {m : Moment}
    (member : m ∈ (d.preview address options).moments) : address.Covers m.location ∧ d.HasPlace m.location := by
  have cued : ∃ cue ∈ d.cues options (.part address), cue.place? = some (m.location, m.bpm) := by
    have inBody : m ∈ (d.answer options (.part address)).body (.part address) := member
    rcases body_cue inBody with struck | ⟨barred, _⟩
    · exact ⟨_, struck, rfl⟩
    · exact ⟨_, barred, rfl⟩
  obtain ⟨cue, inCues, place⟩ := cued
  have inProgram : cue ∈ program.cues d (d.globalTempo options) := by
    rw [cues, found] at inCues
    exact inCues
  exact ⟨(program?_part found).covers inProgram place, (cues_origin inCues).hasPlace place⟩

theorem preview_section_pass (found : d.program? (.part address) = some program) :
    ∃ unit subsections, d.sections[address.sectionIndex]? = some unit ∧
      (d.preview address options).sections = [⟨unit.id, unit.title, subsections⟩] := by
  have played := d.preview_eq address options
  rw [found] at played
  rw [played]
  cases program?_part found with
  | oneSection atUnit => exact ⟨_, _, atUnit, rfl⟩
  | oneSubsection atUnit atB => exact ⟨_, _, atUnit, rfl⟩
  | oneSequence atUnit atB content atQ => exact ⟨_, _, atUnit, rfl⟩

theorem preview_located (found : d.program? (.part address) = some program) {p : Diagnostic}
    (told : p ∈ (d.preview address options).diagnostics) : p.kind ≠ .unresolvedLocation := by
  have told : p ∈ (d.answer options (.part address)).diagnostics := told
  rw [diagnostics_found found] at told
  rcases List.mem_append.mp told with met | ending
  · rcases met_kinds (List.mem_eraseDups.mp met) with kind | kind <;> rw [kind] <;> decide
  · split at ending
    · rw [List.mem_singleton.mp ending]
      exact nofun
    · cases ending

/-- A preview reads nothing of the document but the excerpt at the address and the tempo of the whole. -/
theorem preview_excerpt (d : Document) (address : Address) (options : Options) :
    d.preview address options = match d.excerpt? options address with
      | some excerpt =>
        ⟨(excerpt.part options.cap (d.globalTempo options) Clock.start).units,
          (excerpt.part options.cap (d.globalTempo options) Clock.start).moments,
          (excerpt.part options.cap (d.globalTempo options) Clock.start).diagnostics options⟩
      | none => ⟨[], [], [⟨.nothingAt address, none⟩]⟩ := by
  rw [preview_eq, excerpt?]
  cases found : d.program? (.part address) with
  | none => rfl
  | some program =>
    cases program?_part found with
    | oneSection atUnit => rfl
    | oneSubsection atUnit atB => rfl
    | oneSequence atUnit atB content atQ => rfl

/-- A preview only complains where nothing is at its address. Elsewhere it plays inside what is there, and the same
for every document with the same excerpt there and the same tempo of the whole. -/
theorem preview_scoped (d : Document) (address : Address) (options : Options) :
    ((d.preview address options).sections = [] ∧ (d.preview address options).moments = [] ∧
        (∃ p, (d.preview address options).diagnostics = [p] ∧ p.kind = .unresolvedLocation) ↔ d.Misses address) ∧
    (¬d.Misses address →
      (∃ unit subsections, d.sections[address.sectionIndex]? = some unit ∧
        (d.preview address options).sections = [⟨unit.id, unit.title, subsections⟩]) ∧
      (∀ p ∈ (d.preview address options).diagnostics, p.kind ≠ .unresolvedLocation) ∧
      ∀ m ∈ (d.preview address options).moments, address.Covers m.location ∧ d.HasPlace m.location) ∧
    ∀ other : Document, other.globalTempo options = d.globalTempo options →
      other.excerpt? options address = d.excerpt? options address →
      other.preview address options = d.preview address options := by
  refine ⟨⟨fun complains => ?_, fun misses => ?_⟩, fun hits => ?_, fun other tempo excerpt => ?_⟩
  · obtain ⟨_, _, p, only, kind⟩ := complains
    refine misses_iff.mpr (Option.eq_none_iff_forall_not_mem.mpr fun program found => ?_)
    have told : p ∈ (d.preview address options).diagnostics := by
      rw [only]
      exact List.mem_singleton_self p
    exact preview_located found told kind
  · have played := d.preview_eq address options
    rw [misses_iff.mp misses] at played
    rw [played]
    exact ⟨rfl, rfl, _, rfl, rfl⟩
  · obtain ⟨program, found⟩ := Option.ne_none_iff_exists'.mp (mt misses_iff.mpr hits)
    exact ⟨preview_section_pass found, fun p told => preview_located found told,
      fun m member => preview_covers found member⟩
  · rw [preview_excerpt, preview_excerpt, tempo, excerpt]

/-- The chorus is played as it is behind any other verse, and has no chord sequence. -/
theorem chorus_scoped :
    verseAndChorus.Misses ⟨1, some 0, some 0⟩ ∧
    (verseAndChorus.preview ⟨1, some 0, some 0⟩ ⟨120.0, none⟩).moments = [] ∧
    (∀ m ∈ (verseAndChorus.preview ⟨1, some 0, none⟩ ⟨120.0, none⟩).moments, m.location.subsectionIndex = 0) ∧
    ({ sections := [oneColumn "other" "Else", oneColumn "chorus" "Second"] } : Document).preview ⟨1, some 0, none⟩
      ⟨120.0, none⟩ = verseAndChorus.preview ⟨1, some 0, none⟩ ⟨120.0, none⟩ := by
  obtain ⟨lost, _, _⟩ := preview_scoped verseAndChorus ⟨1, some 0, some 0⟩ ⟨120.0, none⟩
  obtain ⟨_, hits, frame⟩ := preview_scoped verseAndChorus ⟨1, some 0, none⟩ ⟨120.0, none⟩
  have inTab : verseAndChorus.Misses ⟨1, some 0, some 0⟩ := .inTab rfl rfl rfl
  have there : ¬verseAndChorus.Misses ⟨1, some 0, none⟩ := fun misses => nomatch misses_iff.mp misses
  obtain ⟨_, _, inside⟩ := hits there
  exact ⟨inTab, (lost.mpr inTab).2.1, fun m member => (inside m member).1.2.1 0 rfl, frame _ rfl rfl⟩

end Document

end Tablature
