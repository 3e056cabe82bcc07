import Tablature.Lint
import Tablature.Proofs.Problems

namespace Tablature

namespace ChordSequence

/-- What lint says about the strums of a chord sequence. -/
def lintStrums (q : ChordSequence) (start : Location) : List Diagnostic :=
  (q.pattern.strums.mapIdx fun k strum =>
    match strum.tag? with
    | some _ => []
    | none => [(⟨.unknownStrum strum.text, some { start with unit := k }⟩ : Diagnostic)]).flatten

def lintChords (q : ChordSequence) (start : Location) : List Diagnostic :=
  if q.chords.length = q.pattern.strums.length then []
  else [⟨.chordCount q.chords.length q.pattern.strums.length, start⟩]

/-- The four checks of a chord sequence, in the order of their complaints. Each check has a kind of its own, so
that the kind of a complaint tells which of them made it. -/
theorem lint_eq (q : ChordSequence) (start : Location) :
    q.lint start = lintTempo .sequence start q.bpm ++ q.pattern.lintLength start ++ q.lintStrums start ++
      q.lintChords start := rfl

end ChordSequence

section Kinds

variable {p : Diagnostic}

/-- All checks of a tempo complain with one kind, whoever the tempo belongs to. The owner is told by the problem
and the place, not by the kind. -/
theorem lintTempo_kind {owner : TempoOwner} {location : Option Location} {bpm : Option Float}
    (member : p ∈ lintTempo owner location bpm) : p.kind = .invalidBpm := by
  unfold lintTempo at member
  split at member
  · split at member
    · cases member
    · cases List.mem_singleton.mp member
      rfl
  · cases member

theorem Column.lintMeasureLine_kind {c : Column} {location : Location} (member : p ∈ c.lintMeasureLine location) :
    p.kind = .invalidBpm := by
  unfold lintMeasureLine at member
  split at member
  · cases member
  · split at member
    · exact lintTempo_kind member
    · cases List.mem_singleton.mp member
      rfl

/-- The length of a pattern is complained about with one kind, be its name unknown or be it a name under which
nothing takes time. -/
theorem StrummingPattern.lintLength_kind {pattern : StrummingPattern} {location : Location}
    (member : p ∈ pattern.lintLength location) : p.kind = .unknownNoteLength := by
  unfold lintLength at member
  split at member
  · split at member
    · cases member
    · cases List.mem_singleton.mp member
      rfl
  · cases List.mem_singleton.mp member
    rfl

theorem ChordSequence.lintStrums_kind {q : ChordSequence} {start : Location} (member : p ∈ q.lintStrums start) :
    p.kind = .unknownStrum := by
  obtain ⟨k, strum, _, inStrum⟩ := mem_flatten_mapIdx.mp member
  split at inStrum
  · cases inStrum
  · cases List.mem_singleton.mp inStrum
    rfl

theorem ChordSequence.lintChords_kind {q : ChordSequence} {start : Location} (member : p ∈ q.lintChords start) :
    p.kind = .chordCountMismatch := by
  unfold lintChords at member
  split at member
  · cases member
  · cases List.mem_singleton.mp member
    rfl

/-- No unit of a section complains that a section is missing. That kind is left to the entries of the progression,
which have no place in any section. -/
theorem Column.lint_kind {c : Column} {location : Location} (member : p ∈ c.lint location) :
    p.kind ≠ .unresolvedSection := by
  unfold lint at member
  split at member
  · rw [lintMeasureLine_kind member]
    decide
  · split at member
    · cases member
    · cases List.mem_singleton.mp member
      exact nofun

theorem ChordSequence.lint_kind {q : ChordSequence} {start : Location} (member : p ∈ q.lint start) :
    p.kind ≠ .unresolvedSection := by
  rw [lint_eq, List.mem_append, List.mem_append, List.mem_append] at member
  rcases member with ((tempo | length) | strum) | chords
  · rw [lintTempo_kind tempo]
    decide
  · rw [StrummingPattern.lintLength_kind length]
    decide
  · rw [lintStrums_kind strum]
    decide
  · rw [lintChords_kind chords]
    decide

theorem Subsection.lint_kind {b : Subsection} {s t : Nat} (member : p ∈ b.lint s t) :
    p.kind ≠ .unresolvedSection := by
  unfold lint at member
  rcases List.mem_append.mp member with tempo | inContent
  · rw [lintTempo_kind tempo]
    decide
  · cases content : b.content with
    | tab columns =>
      rw [content] at inContent
      obtain ⟨c, column, _, inColumn⟩ := mem_flatten_mapIdx.mp inContent
      exact Column.lint_kind inColumn
    | chords sequences =>
      rw [content] at inContent
      obtain ⟨i, q, _, inSequence⟩ := mem_flatten_mapIdx.mp inContent
      exact ChordSequence.lint_kind inSequence

end Kinds

namespace Document

variable {d : Document} {p : Diagnostic}

/-- Lint speaks of the tempo of the document, of its progression, and of each subsection at its place. No section
is left out, whether the progression names it or not. -/
theorem mem_lint : p ∈ d.lint ↔ p ∈ lintTempo .document none d.bpm ∨ p ∈ d.lintProgression ∨
    ∃ (s t : Nat) (unit : Section) (b : Subsection), d.sections[s]? = some unit ∧ unit.subsections[t]? = some b ∧
      p ∈ b.lint s t := by
  unfold lint
  rw [List.mem_append, List.mem_append, or_assoc, mem_flatten_mapIdx]
  refine or_congr_right (or_congr_right ⟨?_, ?_⟩)
  · rintro ⟨s, unit, atUnit, inUnit⟩
    obtain ⟨t, b, atB, inB⟩ := mem_flatten_mapIdx.mp inUnit
    exact ⟨s, t, unit, b, atUnit, atB, inB⟩
  · rintro ⟨s, t, unit, b, atUnit, atB, inB⟩
    exact ⟨s, unit, atUnit, mem_flatten_mapIdx.mpr ⟨t, b, atB, inB⟩⟩

/-- Only entries that are stored are looked at. The progression that stands in for none names sections that exist,
and so would never be complained about. -/
theorem mem_lintProgression : p ∈ d.lintProgression ↔ ∃ entry ∈ d.progression,
    d.section? entry.sectionId = none ∧ p = ⟨.missingSection entry.sectionId, none⟩ := by
  unfold lintProgression
  rw [List.mem_flatMap]
  refine exists_congr fun entry => and_congr_right fun _ => ?_
  cases d.section? entry.sectionId with
  | none => exact List.mem_singleton.trans (and_iff_right rfl).symm
  | some place => exact iff_of_false List.not_mem_nil fun missing => by cases missing.1

end Document

end Tablature
