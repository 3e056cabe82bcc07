import Tablature.Proofs.Performance

namespace Tablature

theorem mem_eachPass {β : Type} {x : β} {repetitions : UInt32} {xs : List β} :
    x ∈ eachPass repetitions xs ↔ x ∈ xs := by
  have atLeastOnce : passes repetitions ≠ 0 := by
    unfold passes
    omega
  simp only [eachPass, List.mem_flatten, List.mem_replicate]
  constructor
  · rintro ⟨_, ⟨_, rfl⟩, member⟩
    exact member
  · exact fun member => ⟨xs, ⟨atLeastOnce, rfl⟩, member⟩

theorem mem_problemAt {location : Location} {problem : Option Problem} {p : Diagnostic} :
    p ∈ problemAt location problem ↔ problem = some p.problem ∧ p.location = some location := by
  unfold problemAt
  rw [List.mem_map]
  constructor
  · rintro ⟨found, inProblem, rfl⟩
    exact ⟨Option.mem_toList.mp inProblem, rfl⟩
  · rintro ⟨found, at'⟩
    exact ⟨p.problem, Option.mem_toList.mpr found, by rw [← at']⟩

/-- A column cues a bar, or a unit and what is wrong with its length. -/
theorem Column.mem_cues {location : Location} {bpm : Float} {c : Column} {cue : Cue}
    (member : cue ∈ c.cues location bpm) :
    c.isMeasureLine = true ∧ cue = .bar location bpm ∨
    c.isMeasureLine = false ∧ cue = .strike location bpm (playableLength c.noteLength).1 ∨
    ∃ p ∈ problemAt location (playableLength c.noteLength).2, cue = .report p := by
  unfold cues at member
  split at member
  · rename_i line
    exact Or.inl ⟨line, List.mem_singleton.mp member⟩
  · rename_i played
    rcases List.mem_cons.mp member with struck | reported
    · exact Or.inr (Or.inl ⟨(Bool.not_eq_true _).mp played, struck⟩)
    · obtain ⟨p, wrong, same⟩ := List.mem_map.mp reported
      exact Or.inr (Or.inr ⟨p, wrong, same.symm⟩)

/-- A chord sequence cues what is wrong with its length, and its strums. -/
theorem ChordSequence.mem_cues {enclosing : Float} {s t i : Nat} {q : ChordSequence} {cue : Cue}
    (member : cue ∈ q.cues enclosing s t i) :
    (∃ p ∈ problemAt (.strum s t i 0) (playableLength q.pattern.noteLength).2, cue = .report p) ∨
    ∃ k < q.pattern.strums.length,
      cue = .strike (.strum s t i k) (resolveTempo q.bpm enclosing) (playableLength q.pattern.noteLength).1 := by
  rcases List.mem_append.mp member with reported | played
  · obtain ⟨p, wrong, same⟩ := List.mem_map.mp reported
    exact Or.inl ⟨p, wrong, same.symm⟩
  · obtain ⟨k, bound, same⟩ := List.mem_mapIdx.mp (mem_eachPass.mp played)
    exact Or.inr ⟨k, bound, same.symm⟩

/-- Where in the document a cue comes from: a column, a chord sequence, or an id that no section has. -/
inductive Cue.Origin (d : Document) (global : Float) : Cue → Prop
  | column {s t i : Nat} {unit : Section} {b : Subsection} {columns : List Column} {c : Column} {cue : Cue}
      (atUnit : d.sections[s]? = some unit) (atB : unit.subsections[t]? = some b)
      (content : b.content = .tab columns) (atC : columns[i]? = some c)
      (member : cue ∈ c.cues (.column s t i) (columnTempo (resolveTempo b.bpm global) columns i)) :
      Origin d global cue
  | sequence {s t i : Nat} {unit : Section} {b : Subsection} {sequences : List ChordSequence} {q : ChordSequence}
      {cue : Cue} (atUnit : d.sections[s]? = some unit) (atB : unit.subsections[t]? = some b)
      (content : b.content = .chords sequences) (atQ : sequences[i]? = some q)
      (member : cue ∈ q.cues (resolveTempo b.bpm global) s t i) : Origin d global cue
  | missing (id : String) : Origin d global (.report ⟨.missingSection id, none⟩)

theorem Subsection.cues_origin {d : Document} {s t : Nat} {unit : Section} {b : Subsection}
    (atUnit : d.sections[s]? = some unit) (atB : unit.subsections[t]? = some b) {global : Float} {cue : Cue}
    (member : cue ∈ b.cues global s t) : cue.Origin d global := by
  replace member := mem_eachPass.mp member
  cases content : b.content with
  | tab columns =>
    rw [content] at member
    obtain ⟨i, c, atC, inColumn⟩ := mem_flatten_mapIdx.mp member
    exact .column atUnit atB content atC inColumn
  | chords sequences =>
    rw [content] at member
    obtain ⟨i, q, atQ, inSequence⟩ := mem_flatten_mapIdx.mp member
    exact .sequence atUnit atB content atQ inSequence

theorem Section.cues_origin {d : Document} {s : Nat} {unit : Section} (atUnit : d.sections[s]? = some unit)
    {global : Float} {cue : Cue} (member : cue ∈ unit.cues global s) : cue.Origin d global := by
  obtain ⟨t, b, atB, inB⟩ := mem_flatten_mapIdx.mp member
  exact Subsection.cues_origin atUnit atB inB

theorem ProgressionEntry.cues_origin {d : Document} {entry : ProgressionEntry} {global : Float} {cue : Cue}
    (member : cue ∈ entry.cues d global) : cue.Origin d global := by
  unfold ProgressionEntry.cues at member
  cases found : d.section? entry.sectionId with
  | none =>
    rw [found] at member
    cases List.mem_singleton.mp member
    exact .missing entry.sectionId
  | some place =>
    rw [found] at member
    exact Section.cues_origin (Document.section?_mem found) (mem_eachPass.mp member)

theorem Program.cues_origin {d : Document} {program : Program} (placed : program.Placed d) {global : Float}
    {cue : Cue} (member : cue ∈ program.cues d global) : cue.Origin d global := by
  cases placed with
  | progression entries =>
    obtain ⟨entry, _, inEntry⟩ := List.mem_flatMap.mp member
    exact ProgressionEntry.cues_origin inEntry
  | oneSection atUnit => exact Section.cues_origin atUnit member
  | oneSubsection atUnit atB => exact Subsection.cues_origin atUnit atB member
  | oneSequence atUnit atB content atQ => exact .sequence atUnit atB content atQ member

/-- Nothing plays but what is in the document at the place that the cue names. -/
theorem Document.cues_origin {d : Document} {options : Options} {r : Request} {cue : Cue}
    (member : cue ∈ d.cues options r) : cue.Origin d (d.globalTempo options) := by
  unfold cues at member
  cases found : d.program? r with
  | none =>
    rw [found] at member
    cases member
  | some program =>
    rw [found] at member
    exact Program.cues_origin (program?_placed found) member

end Tablature
