import Tablature.Proofs.Linting

namespace Tablature

/-- A problem as lint words it: lint looks at a strumming pattern as a whole and does not speak of playing it. -/
def Problem.linted : Problem → Problem
  | timelessLength _ => timelessPattern
  | problem => problem

def Diagnostic.linted (p : Diagnostic) : Diagnostic :=
  { p with problem := p.problem.linted }

theorem Problem.linted_same {problem : Problem} (timed : ∀ tag, problem ≠ timelessLength tag) :
    problem.linted = problem := by
  cases problem with
  | timelessLength tag => exact absurd rfl (timed tag)
  | _ => rfl

theorem Diagnostic.linted_kind (p : Diagnostic) : p.linted.kind = p.kind := by
  obtain ⟨problem, location⟩ := p
  cases problem <;> rfl

theorem Diagnostic.linted_severity (p : Diagnostic) : p.linted.severity = p.severity := by
  obtain ⟨problem, location⟩ := p
  cases problem <;> rfl

/-- Whether a note length is at fault. -/
def Diagnostic.isLength (p : Diagnostic) : Bool :=
  p.kind == .unknownNoteLength

theorem Diagnostic.isLength_iff {p : Diagnostic} : p.isLength = true ↔ p.kind = .unknownNoteLength :=
  beq_iff_eq

theorem filter_isLength_nil {problems : List Diagnostic} {kind : DiagnosticKind} (other : kind ≠ .unknownNoteLength)
    (each : ∀ p ∈ problems, p.kind = kind) : problems.filter Diagnostic.isLength = [] := by
  rw [List.filter_eq_nil_iff]
  intro p member isLength
  exact other ((each p member).symm.trans (Diagnostic.isLength_iff.mp isLength))

theorem Column.lint_lengths (c : Column) (location : Location) :
    (c.lint location).filter Diagnostic.isLength = (c.problems location).map Diagnostic.linted := by
  unfold lint problems
  by_cases line : c.isMeasureLine = true
  · rw [if_pos line, if_pos line]
    exact filter_isLength_nil (by decide) fun _ => lintMeasureLine_kind
  · rw [if_neg line, if_neg line]
    unfold playableLength
    cases known : NoteLength.ofTag? c.noteLength with
    | none => rfl
    | some length =>
      simp only [if_pos (isPlayable_of_known line known)]
      rfl

theorem StrummingPattern.lintLength_eq (p : StrummingPattern) (location : Location) :
    p.lintLength location = (problemAt location (playableLength p.noteLength).2).map Diagnostic.linted := by
  unfold lintLength playableLength
  cases NoteLength.ofTag? p.noteLength with
  | none => rfl
  | some length =>
    by_cases playable : length.isPlayable = true
    · simp only [if_pos playable]
      rfl
    · simp only [if_neg playable]
      rfl

theorem ChordSequence.lint_lengths (q : ChordSequence) (s t i : Nat) :
    (q.lint (.strum s t i 0)).filter Diagnostic.isLength = (q.problems s t i).map Diagnostic.linted := by
  have tempo : (lintTempo .sequence (some (.strum s t i 0)) q.bpm).filter Diagnostic.isLength = [] :=
    filter_isLength_nil (by decide) fun _ => lintTempo_kind
  have length : (q.pattern.lintLength (.strum s t i 0)).filter Diagnostic.isLength =
      (q.problems s t i).map Diagnostic.linted := by
    have all : (q.pattern.lintLength (.strum s t i 0)).filter Diagnostic.isLength =
        q.pattern.lintLength (.strum s t i 0) :=
      List.filter_eq_self.mpr fun _ member => Diagnostic.isLength_iff.mpr (StrummingPattern.lintLength_kind member)
    rw [all, StrummingPattern.lintLength_eq]
    rfl
  have strums : (q.lintStrums (.strum s t i 0)).filter Diagnostic.isLength = [] :=
    filter_isLength_nil (by decide) fun _ => lintStrums_kind
  have chords : (q.lintChords (.strum s t i 0)).filter Diagnostic.isLength = [] :=
    filter_isLength_nil (by decide) fun _ => lintChords_kind
  rw [lint_eq]
  simp only [List.filter_append, tempo, length, strums, chords, List.nil_append, List.append_nil]

/-- Of what lint says about a subsection, what is about note lengths is what one pass of it meets. -/
theorem Subsection.lint_lengths (b : Subsection) (s t : Nat) :
    (b.lint s t).filter Diagnostic.isLength = (b.content.problems s t).map Diagnostic.linted := by
  have tempo : (lintTempo .subsection (some (.column s t 0)) b.bpm).filter Diagnostic.isLength = [] :=
    filter_isLength_nil (by decide) fun _ => lintTempo_kind
  unfold lint
  rw [List.filter_append, tempo, List.nil_append]
  cases b.content with
  | tab columns => simp only [Content.problems, List.filter_flatten, List.map_flatten, map_mapIdx, Column.lint_lengths]
  | chords sequences =>
    simp only [Content.problems, List.filter_flatten, List.map_flatten, map_mapIdx, ChordSequence.lint_lengths]

namespace Document

variable {d : Document} {p : Diagnostic}

/-- Only a stored progression can name a section that is not there. -/
theorem missing_stored {entry : ProgressionEntry} (member : entry ∈ d.effectiveProgression)
    (missing : d.section? entry.sectionId = none) : entry ∈ d.progression := by
  unfold effectiveProgression at member
  split at member
  · obtain ⟨unit, inSections, rfl⟩ := List.mem_map.mp member
    exact absurd rfl (section?_eq_none_iff.mp missing unit inSections)
  · exact member

theorem stored_effective {entry : ProgressionEntry} (member : entry ∈ d.progression) :
    entry ∈ d.effectiveProgression := by
  unfold effectiveProgression
  rw [if_neg]
  · exact member
  · intro empty
    rw [List.isEmpty_iff.mp empty] at member
    cases member

/-- A problem that lint finds and that playing the document has to meet: an id that no section has, or a length in a
section that is played. -/
def BearsOnPlaying (d : Document) (p : Diagnostic) : Prop :=
  p.kind = .unresolvedSection ∨ p.kind = .unknownNoteLength ∧
    ∃ location, p.location = some location ∧ d.Reaches d.effectiveProgression location.sectionIndex

theorem mem_lint_length {s t : Nat} {unit : Section} {b : Subsection} (atUnit : d.sections[s]? = some unit)
    (atB : unit.subsections[t]? = some b) (met : p ∈ b.content.problems s t) : p.linted ∈ d.lint := by
  have inLengths : p.linted ∈ (b.lint s t).filter Diagnostic.isLength := by
    rw [Subsection.lint_lengths]
    exact List.mem_map_of_mem met
  exact mem_lint.mpr (Or.inr (Or.inr ⟨s, t, unit, b, atUnit, atB, (List.mem_filter.mp inLengths).1⟩))

/-- Lint and playing find the same problems. -/
theorem lint_problems :
    (∃ met ∈ d.problems d.effectiveProgression, met.linted = p) ↔ p ∈ d.lint ∧ d.BearsOnPlaying p := by
  constructor
  · rintro ⟨met, member, rfl⟩
    rcases mem_problems.mp member with ⟨entry, inProgression, missing, rfl⟩ | ⟨s, t, unit, b, reached, atUnit, atB, inB⟩
    · have stored := mem_lintProgression.mpr ⟨entry, missing_stored inProgression missing, missing, rfl⟩
      exact ⟨mem_lint.mpr (Or.inr (Or.inl stored)), Or.inl rfl⟩
    · refine ⟨mem_lint_length atUnit atB inB, Or.inr ⟨?_, ?_⟩⟩
      · rw [Diagnostic.linted_kind]
        exact Content.problems_kind inB
      · obtain ⟨location, here, inSection⟩ := Content.problems_location inB
        refine ⟨location, here, ?_⟩
        rw [inSection]
        exact reached
  · rintro ⟨member, bears⟩
    rcases mem_lint.mp member with tempo | inProgression | ⟨s, t, unit, b, atUnit, atB, inB⟩
    · have kind := lintTempo_kind tempo
      rcases bears with section? | ⟨length, _⟩
      · rw [kind] at section?
        cases section?
      · rw [kind] at length
        cases length
    · obtain ⟨entry, stored, missing, rfl⟩ := mem_lintProgression.mp inProgression
      exact ⟨_, mem_problems.mpr (Or.inl ⟨entry, stored_effective stored, missing, rfl⟩), rfl⟩
    · rcases bears with isSection | ⟨isLength, location, here, reached⟩
      · exact absurd isSection (Subsection.lint_kind inB)
      · have inLengths := List.mem_filter.mpr ⟨inB, Diagnostic.isLength_iff.mpr isLength⟩
        rw [Subsection.lint_lengths] at inLengths
        obtain ⟨met, inContent, rfl⟩ := List.mem_map.mp inLengths
        obtain ⟨other, there, inSection⟩ := Content.problems_location inContent
        have same : location = other := Option.some.inj (here.symm.trans there)
        rw [same, inSection] at reached
        exact ⟨met, mem_problems.mpr (Or.inr ⟨s, t, unit, b, reached, atUnit, atB, inContent⟩), rfl⟩

/-- A chord sequence of the document, by its position. -/
def sequence? (d : Document) (s t i : Nat) : Option ChordSequence := do
  let unit ← d.sections[s]?
  let b ← unit.subsections[t]?
  match b.content with
  | .tab _ => none
  | .chords sequences => sequences[i]?

theorem sequence?_eq {s t i : Nat} {unit : Section} {b : Subsection} {sequences : List ChordSequence}
    (atUnit : d.sections[s]? = some unit) (atB : unit.subsections[t]? = some b)
    (content : b.content = .chords sequences) : d.sequence? s t i = sequences[i]? := by
  simp only [sequence?, atUnit, atB, content, Option.bind_eq_bind, Option.bind_some]

theorem sequence?_placed {s t i : Nat} {q : ChordSequence} (placed : d.sequence? s t i = some q) :
    ∃ (unit : Section) (b : Subsection) (sequences : List ChordSequence), d.sections[s]? = some unit ∧
      unit.subsections[t]? = some b ∧ b.content = .chords sequences ∧ sequences[i]? = some q := by
  obtain ⟨unit, atUnit, inUnit⟩ := Option.bind_eq_some_iff.mp placed
  obtain ⟨b, atB, inB⟩ := Option.bind_eq_some_iff.mp inUnit
  cases content : b.content with
  | tab columns =>
    rw [content] at inB
    cases inB
  | chords sequences =>
    rw [content] at inB
    exact ⟨unit, b, sequences, atUnit, atB, content, inB⟩

/-- The place is the first strum of a chord sequence that is written with the length of a measure line. -/
def TimelessAt (d : Document) (place : Option Location) : Prop :=
  ∃ s t i q, place = some (.strum s t i 0) ∧ d.sequence? s t i = some q ∧
    q.pattern.noteLength = NoteLength.measureLine.tag

/-- Only the length of a measure line is worded differently, and a column with it is not played at all. -/
theorem linted_same {progression : List ProgressionEntry} (met : p ∈ d.problems progression)
    (timed : ¬d.TimelessAt p.location) : p.linted = p := by
  rcases mem_problems.mp met with ⟨entry, _, _, rfl⟩ | ⟨s, t, unit, b, _, atUnit, atB, inB⟩
  · rfl
  · have inContent := Content.mem_problems.mp inB
    cases content : b.content with
    | tab columns =>
      rw [content] at inContent
      cases inContent with
      | @column columns c column problem atColumn length played =>
        have other : problem.linted = problem := Problem.linted_same fun tag timeless => by
          rw [timeless] at length
          have isLine : column.isMeasureLine = true := beq_iff_eq.mpr (playableLength_timeless length)
          rw [played] at isLine
          cases isLine
        rw [Diagnostic.linted, other]
    | chords sequences =>
      rw [content] at inContent
      cases inContent with
      | @sequence sequences i q problem atSequence length =>
        have other : problem.linted = problem := Problem.linted_same fun tag timeless => by
          rw [timeless] at length
          refine timed ⟨s, t, i, q, rfl, ?_, playableLength_timeless length⟩
          rw [sequence?_eq atUnit atB content, atSequence]
        rw [Diagnostic.linted, other]

/-- A chord sequence in a section that is played is complained about when its length cannot be played, even if it
has no strums. -/
theorem sequence_met {s t i : Nat} {q : ChordSequence} (placed : d.sequence? s t i = some q)
    (reached : d.Reaches d.effectiveProgression s) (faulty : q.pattern.noteLength ∉ playableTags) :
    ∃ met ∈ d.problems d.effectiveProgression,
      met.kind = .unknownNoteLength ∧ met.location = some (.strum s t i 0) := by
  obtain ⟨unit, b, sequences, atUnit, atB, content, atQ⟩ := sequence?_placed placed
  obtain ⟨problem, length⟩ := playableLength_faulty faulty
  have meets : b.content.Meets s t ⟨problem, some (.strum s t i 0)⟩ := by
    rw [content]
    exact .sequence atQ length
  refine ⟨_, mem_problems.mpr (Or.inr ⟨s, t, unit, b, reached, atUnit, atB, Content.mem_problems.mpr meets⟩), ?_, rfl⟩
  exact playableLength_problem length

/-- Lint and a compilation without a cap report the same problems: the same kinds, severities and places, and the
same messages too unless a chord sequence is written with the length of a measure line. Only sections that are
played have a say, and a chord sequence has one even without strums. A cap can only leave problems out. -/
theorem lint_agrees (d : Document) (defaultBpm : Float) :
    (∀ kind severity place,
      (∃ p ∈ (d.play d.effectiveProgression ⟨defaultBpm, none⟩).diagnostics,
        p.kind = kind ∧ p.severity = severity ∧ p.location = place) ↔
      ∃ p ∈ d.lint, d.BearsOnPlaying p ∧ p.kind = kind ∧ p.severity = severity ∧ p.location = place) ∧
    (∀ p, ¬d.TimelessAt p.location →
      (p ∈ (d.play d.effectiveProgression ⟨defaultBpm, none⟩).diagnostics ↔ p ∈ d.lint ∧ d.BearsOnPlaying p)) ∧
    (∀ p ∈ (d.play d.effectiveProgression ⟨defaultBpm, none⟩).diagnostics, ∀ location, p.location = some location →
      d.Reaches d.effectiveProgression location.sectionIndex) ∧
    (∀ s t i q, d.sequence? s t i = some q → d.Reaches d.effectiveProgression s →
      q.pattern.noteLength ∉ playableTags →
      (∃ p ∈ (d.play d.effectiveProgression ⟨defaultBpm, none⟩).diagnostics,
        p.kind = .unknownNoteLength ∧ p.location = some (.strum s t i 0)) ∧
      ∃ p ∈ d.lint, p.kind = .unknownNoteLength ∧ p.location = some (.strum s t i 0)) ∧
    ∀ cap, ∀ p ∈ (d.play d.effectiveProgression ⟨defaultBpm, some cap⟩).diagnostics, p.kind ≠ .truncated →
      p ∈ (d.play d.effectiveProgression ⟨defaultBpm, none⟩).diagnostics := by
  refine ⟨fun kind severity place => ⟨?_, ?_⟩, fun p timed => ⟨fun reported => ?_, fun linted => ?_⟩,
    fun p reported location here => ?_, fun s t i q placed reached faulty => ?_, fun cap p reported untruncated => ?_⟩
  · rintro ⟨p, reported, sameKind, sameSeverity, samePlace⟩
    obtain ⟨inLint, bears⟩ := lint_problems.mp ⟨p, mem_play_problems.mp reported, rfl⟩
    exact ⟨p.linted, inLint, bears, p.linted_kind.trans sameKind, p.linted_severity.trans sameSeverity, samePlace⟩
  · rintro ⟨p, inLint, bears, sameKind, sameSeverity, samePlace⟩
    obtain ⟨met, member, rfl⟩ := lint_problems.mpr ⟨inLint, bears⟩
    exact ⟨met, mem_play_problems.mpr member, met.linted_kind.symm.trans sameKind,
      met.linted_severity.symm.trans sameSeverity, samePlace⟩
  · have member := mem_play_problems.mp reported
    have found := lint_problems.mp ⟨p, member, rfl⟩
    rwa [linted_same member timed] at found
  -- Lint may have worded another problem like this one, but not at a place where the two wordings are the same.
  · obtain ⟨met, member, same⟩ := lint_problems.mpr linted
    have samePlace : met.location = p.location := by
      rw [← same]
      rfl
    rw [← samePlace] at timed
    rw [linted_same member timed] at same
    rw [mem_play_problems, ← same]
    exact member
  · rcases mem_problems.mp (mem_play_problems.mp reported) with ⟨entry, _, _, rfl⟩ | ⟨s, t, unit, b, reached, _, _, inB⟩
    · cases here
    · obtain ⟨other, there, inSection⟩ := Content.problems_location inB
      have same : location = other := Option.some.inj (here.symm.trans there)
      rw [same, inSection]
      exact reached
  · obtain ⟨met, member, kind, place⟩ := sequence_met placed reached faulty
    obtain ⟨inLint, _⟩ := lint_problems.mp ⟨met, member, rfl⟩
    exact ⟨⟨met, mem_play_problems.mpr member, kind, place⟩, met.linted, inLint, met.linted_kind.trans kind, place⟩
  · obtain ⟨met, isFront, _, same⟩ := d.diagnostics_capped defaultBpm cap (.whole d.effectiveProgression)
    change p ∈ (d.answer ⟨defaultBpm, some cap⟩ (.whole d.effectiveProgression)).diagnostics at reported
    rw [same, List.mem_append] at reported
    rcases reported with inFront | isEnding
    · exact isFront.subset inFront
    · split at isEnding
      · rw [List.mem_singleton.mp isEnding] at untruncated
        exact absurd rfl untruncated
      · cases isEnding

end Document

end Tablature
