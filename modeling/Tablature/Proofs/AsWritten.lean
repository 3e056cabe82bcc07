import Tablature.Proofs.CleanDocument

namespace Tablature

/-- The first of these tempos that is set. -/
def innermost (tempos : List (Option Float)) (fallback : Float) : Float :=
  (tempos.findSome? id).getD fallback

/-- Where every tempo that is set can be played, the first of them is taken. -/
theorem firstUsable_eq_innermost {tempos : List (Option Float)}
    (usable : ∀ bpm, some bpm ∈ tempos → isUsableTempo bpm = true) (fallback : Option Float) :
    firstUsable (tempos ++ [fallback]) = innermost tempos (resolveTempo fallback 120.0) := by
  induction tempos with
  | nil => exact firstUsable_cons fallback []
  | cons tempo tempos ih =>
    have later := ih fun bpm member => usable bpm (List.mem_cons_of_mem _ member)
    rw [List.cons_append, firstUsable_cons, later]
    cases tempo with
    | none => rfl
    | some bpm => exact if_pos (usable bpm List.mem_cons_self)

theorem lastMeasureLine_mem {columns : List Column} {c : Nat} {line : Column}
    (found : lastMeasureLine columns c = some line) : line ∈ columns ∧ line.isMeasureLine = true := by
  obtain ⟨inFront, isLine⟩ := List.mem_filter.mp (List.mem_of_getLast? found)
  exact ⟨List.mem_of_mem_take inFront, isLine⟩

theorem playableLength_clean {tag : String} (clean : tag ∈ playableTags) : (playableLength tag).1.tag = tag := by
  obtain ⟨length, known, playable⟩ := mem_playableTags.mp clean
  unfold playableLength
  simp only [known, if_pos playable]
  exact NoteLength.ofTag?_eq_some_iff.mp known

theorem storedTempo_eq_some {bpm stored : Float} (set : storedTempo bpm = some stored) :
    stored = bpm ∧ ¬(bpm == unsetTempo) = true := by
  unfold storedTempo at set
  split at set
  · cases set
  · rename_i other
    exact ⟨(Option.some.inj set).symm, other⟩

theorem Content.ownTempo?_eq_some {content : Content} {sequence : Option Nat} {place : Nat} {own : Option Float}
    (found : content.ownTempo? sequence place = some own) :
    (∃ columns, content = .tab columns ∧ own = (lastMeasureLine columns place).bind Column.measureTempo) ∨
      ∃ sequences, content = .chords sequences ∧ ∃ q ∈ sequences, own = q.bpm := by
  cases content with
  | tab columns =>
    cases sequence with
    | none =>
      obtain ⟨_, _, same⟩ := Option.map_eq_some_iff.mp found
      exact Or.inl ⟨columns, rfl, same.symm⟩
    | some i => cases found
  | chords sequences =>
    cases sequence with
    | none => cases found
    | some i =>
      obtain ⟨q, atQ, inQ⟩ := Option.bind_eq_some_iff.mp found
      obtain ⟨_, _, same⟩ := Option.map_eq_some_iff.mp inQ
      exact Or.inr ⟨sequences, rfl, q, List.mem_of_getElem? atQ, same.symm⟩

namespace Document

variable {d : Document}

/-- The tag that is written for the length of a column or a strum. -/
def tagAt? (d : Document) (l : Location) : Option String := do
  let unit ← d.sections[l.sectionIndex]?
  let b ← unit.subsections[l.subsectionIndex]?
  match b.content, l.sequenceIndex with
  | .tab columns, none => (columns[l.unit]?).map Column.noteLength
  | .chords sequences, some i =>
    (sequences[i]?).bind fun q => (q.pattern.strums[l.unit]?).map fun _ => q.pattern.noteLength
  | _, _ => none

/-- The tempos that the scopes around a column or a strum set, from the inside out. A column is in the scope of the
last measure line up to it. -/
def scopesAt? (d : Document) (l : Location) : Option (List (Option Float)) := do
  let unit ← d.sections[l.sectionIndex]?
  let b ← unit.subsections[l.subsectionIndex]?
  let own ← b.content.ownTempo? l.sequenceIndex l.unit
  some [own, b.bpm, d.bpm]

theorem tempoAt?_eq (d : Document) (options : Options) (l : Location) :
    d.tempoAt? options l = (d.scopesAt? l).map fun scopes => firstUsable (scopes ++ [some options.defaultBpm]) := by
  simp only [tempoAt?, scopesAt?, Option.bind_eq_bind, Option.map_bind, Function.comp_def, Option.map_some]
  rfl

section Members

variable {s t i : Nat} {unit : Section} {b : Subsection} (atUnit : d.sections[s]? = some unit)
  (atB : unit.subsections[t]? = some b)

include atUnit atB

theorem mem_subsections : b ∈ d.subsections :=
  List.mem_flatMap.mpr ⟨unit, List.mem_of_getElem? atUnit, List.mem_of_getElem? atB⟩

theorem mem_columns {columns : List Column} {c : Column} (content : b.content = .tab columns) (member : c ∈ columns) :
    c ∈ d.columns := by
  refine List.mem_flatMap.mpr ⟨b, mem_subsections atUnit atB, ?_⟩
  rw [content]
  exact member

theorem mem_sequences {sequences : List ChordSequence} {q : ChordSequence} (content : b.content = .chords sequences)
    (member : q ∈ sequences) : q ∈ d.sequences := by
  refine List.mem_flatMap.mpr ⟨b, mem_subsections atUnit atB, ?_⟩
  rw [content]
  exact member

end Members

/-- A number in the slot of a measure line is set as its tempo, unless it is the one for no tempo. -/
theorem Clean.slot (clean : d.Clean) {c : Column} (member : c ∈ d.columns) (line : c.isMeasureLine = true)
    (filled : trim c.effects.toList ≠ []) :
    ∃ bpm, c.slotTempo = some bpm ∧ ((bpm == unsetTempo) = true ∨ c.measureTempo = some bpm) := by
  obtain ⟨bpm, slot, _⟩ := (clean.measureLines c member line).resolve_left filled
  refine ⟨bpm, slot, ?_⟩
  rw [Column.measureTempo, if_pos line, slot, Option.bind_some, storedTempo]
  by_cases unset : (bpm == unsetTempo) = true
  · exact Or.inl unset
  · rw [if_neg unset]
    exact Or.inr rfl

theorem Clean.measureTempo (clean : d.Clean) {c : Column} (member : c ∈ d.columns) {bpm : Float}
    (set : c.measureTempo = some bpm) : isUsableTempo bpm = true := by
  by_cases line : c.isMeasureLine = true
  · rw [Column.measureTempo, if_pos line] at set
    obtain ⟨written, slot, stored⟩ := Option.bind_eq_some_iff.mp set
    obtain ⟨rfl, other⟩ := storedTempo_eq_some stored
    -- A blank slot has no number, so the tempo that is set here was looked at by lint.
    rcases clean.measureLines c member line with empty | ⟨read, same, fine⟩
    · rw [Column.slotTempo, empty] at slot
      cases slot
    · rw [slot] at same
      cases same
      exact fine.resolve_left other
  · rw [Column.measureTempo, if_neg line] at set
    cases set

theorem Clean.scopes (clean : d.Clean) {l : Location} {scopes : List (Option Float)}
    (found : d.scopesAt? l = some scopes) {bpm : Float} (member : some bpm ∈ scopes) : isUsableTempo bpm = true := by
  obtain ⟨unit, atUnit, inUnit⟩ := Option.bind_eq_some_iff.mp found
  obtain ⟨b, atB, inB⟩ := Option.bind_eq_some_iff.mp inUnit
  obtain ⟨own, isOwn, same⟩ := Option.bind_eq_some_iff.mp inB
  cases same
  simp only [List.mem_cons, List.not_mem_nil, or_false] at member
  rcases member with ofPlace | ofB | ofDocument
  · rcases Content.ownTempo?_eq_some isOwn with ⟨columns, content, same⟩ | ⟨sequences, content, q, inContent, same⟩
    · obtain ⟨line, found, set⟩ := Option.bind_eq_some_iff.mp (same.symm.trans ofPlace.symm)
      exact clean.measureTempo (mem_columns atUnit atB content (lastMeasureLine_mem found).1) set
    · have member := mem_sequences atUnit atB content inContent
      exact clean.tempos bpm (mem_tempos.mpr (Or.inr (Or.inr ⟨q, member, same.symm.trans ofPlace.symm⟩)))
  · exact clean.tempos bpm (mem_tempos.mpr (Or.inr (Or.inl ⟨b, mem_subsections atUnit atB, ofB.symm⟩)))
  · exact clean.tempos bpm (mem_tempos.mpr (Or.inl ofDocument.symm))

/-- What plays is timed by the length whose tag is written there. -/
theorem Clean.strike (clean : d.Clean) {global bpm : Float} {location : Location} {length : NoteLength}
    (origin : (Cue.strike location bpm length).Origin d global) : d.tagAt? location = some length.tag := by
  cases origin with
  | @column s t i unit b columns c cue atUnit atB content atC member =>
    rcases Column.mem_cues member with ⟨_, other⟩ | ⟨played, same⟩ | ⟨p, _, other⟩
    · cases other
    · cases same
      have written := clean.columns c (mem_columns atUnit atB content (List.mem_of_getElem? atC)) played
      simp only [tagAt?, Location.column, atUnit, atB, content, atC, Option.bind_eq_bind, Option.bind_some,
        Option.map_some, playableLength_clean written]
    · cases other
  | @sequence s t i unit b sequences q cue atUnit atB content atQ member =>
    rcases ChordSequence.mem_cues member with ⟨p, _, other⟩ | ⟨k, bound, same⟩
    · cases other
    · cases same
      have written := clean.patterns q (mem_sequences atUnit atB content (List.mem_of_getElem? atQ))
      simp only [tagAt?, Location.strum, atUnit, atB, content, atQ, List.getElem?_eq_getElem bound, Option.bind_eq_bind,
        Option.bind_some, Option.map_some, playableLength_clean written]

theorem Clean.moment_tag (clean : d.Clean) {options : Options} {r : Request} {m : Moment}
    (member : m ∈ (d.answer options r).moments) (playable : m.isPlayable = true) :
    d.tagAt? m.location = some m.length.tag := by
  have inBody : m ∈ (d.answer options r).body r := by
    rcases moments_origin member with inBody | ⟨last, _, rfl⟩
    · exact inBody
    · cases playable
  rcases body_cue inBody with struck | ⟨_, _, silent⟩
  · exact clean.strike (cues_origin struck)
  · rw [Moment.isPlayable, silent] at playable
    cases playable

theorem Clean.moment_tempo (clean : d.Clean) (options : Options) {r : Request} {m : Moment}
    (member : m ∈ (d.answer options r).body r) : ∃ scopes, d.scopesAt? m.location = some scopes ∧
      m.bpm = innermost scopes (resolveTempo (some options.defaultBpm) 120.0) := by
  have tempo := body_tempo member
  rw [tempoAt?_eq] at tempo
  obtain ⟨scopes, found, same⟩ := Option.map_eq_some_iff.mp tempo
  exact ⟨scopes, found, same.symm.trans (firstUsable_eq_innermost (fun _ => clean.scopes found) _)⟩

end Document

/-- The tempo of a pass is the innermost one that is set from its own scope on. -/
def SequencePass.Keeps (sequences : List ChordSequence) (scopes : List (Option Float)) (fallback : Float) (i : Nat)
    (pass : SequencePass) : Prop :=
  ∃ q, sequences[i]? = some q ∧ pass.bpm = innermost (q.bpm :: scopes) fallback

def SubsectionPass.Keeps (unit : Section) (scopes : List (Option Float)) (fallback : Float) (turn : SubsectionTurn)
    (pass : SubsectionPass) : Prop :=
  ∃ b, unit.subsections[turn.t]? = some b ∧ pass.bpm = innermost (b.bpm :: scopes) fallback ∧
    ∀ passes, pass.content = .chords passes → ∃ sequences, b.content = .chords sequences ∧
      Aligned (SequencePass.Keeps sequences (b.bpm :: scopes) fallback) turn.sequences passes

def SectionPass.Keeps (d : Document) (fallback : Float) (turn : SectionTurn) (pass : SectionPass) : Prop :=
  ∃ unit, d.sections[turn.s]? = some unit ∧
    Aligned (SubsectionPass.Keeps unit [d.bpm] fallback) turn.subsections pass.subsections

theorem Aligned.mono {σ α : Type} {R S : σ → α → Prop} {turns : List σ} {units : List α}
    (aligned : Aligned R turns units) (each : ∀ {turn unit}, R turn unit → S turn unit) : Aligned S turns units := by
  intro k unit at'
  obtain ⟨turn, place, holds⟩ := aligned k unit at'
  exact ⟨turn, place, each holds⟩

namespace Document

variable {d : Document}

theorem Clean.sections_keep (clean : d.Clean) (options : Options) (r : Request) :
    Aligned (SectionPass.Keeps d (resolveTempo (some options.defaultBpm) 120.0)) (d.turns r)
      (d.answer options r).sections := by
  refine (d.sections_inTempo options r).mono fun inTempo => ?_
  obtain ⟨unit, atUnit, aligned⟩ := inTempo
  refine ⟨unit, atUnit, aligned.mono fun inTempo => ?_⟩
  obtain ⟨b, atB, tempo, inner⟩ := inTempo
  have outer (bpm : Float) (member : some bpm ∈ [b.bpm, d.bpm]) : isUsableTempo bpm = true := by
    simp only [List.mem_cons, List.not_mem_nil, or_false] at member
    rcases member with set | set
    · exact clean.tempos bpm (mem_tempos.mpr (Or.inr (Or.inl ⟨b, mem_subsections atUnit atB, set.symm⟩)))
    · exact clean.tempos bpm (mem_tempos.mpr (Or.inl set.symm))
  refine ⟨b, atB, tempo.trans (firstUsable_eq_innermost outer _), fun passes same => ?_⟩
  obtain ⟨sequences, content, aligned⟩ := inner passes same
  refine ⟨sequences, content, aligned.mono fun inTempo => ?_⟩
  obtain ⟨q, atQ, tempo⟩ := inTempo
  have all (bpm : Float) (member : some bpm ∈ q.bpm :: [b.bpm, d.bpm]) : isUsableTempo bpm = true := by
    rcases List.mem_cons.mp member with set | inOuter
    · have inD := mem_sequences atUnit atB content (List.mem_of_getElem? atQ)
      exact clean.tempos bpm (mem_tempos.mpr (Or.inr (Or.inr ⟨q, inD, set.symm⟩)))
    · exact outer bpm inOuter
  exact ⟨q, atQ, tempo.trans (firstUsable_eq_innermost all _)⟩

/-- A document that lint finds clean meets no problem when it is played. -/
theorem problems_of_lint (silent : d.lint = []) : d.problems d.effectiveProgression = [] := by
  rw [List.eq_nil_iff_forall_not_mem]
  intro met member
  have inLint := (lint_problems.mp ⟨met, member, rfl⟩).1
  rw [silent] at inLint
  cases inLint

/-- Lint finds nothing exactly in clean documents, and those are played as they are written: without a problem, each
unit with the length that its tag names, and at the innermost tempo that is set around it, which the slot of a
measure line sets if it has any number but the one for no tempo. -/
theorem lint_clean (d : Document) :
    (d.lint = [] ↔ d.Clean) ∧
    (d.lint = [] → ∀ defaultBpm,
      (d.play d.effectiveProgression ⟨defaultBpm, none⟩).diagnostics = [] ∧
      (∀ m ∈ (d.play d.effectiveProgression ⟨defaultBpm, none⟩).moments, m.isPlayable = true →
        d.tagAt? m.location = some m.length.tag) ∧
      (∀ c ∈ d.columns, c.isMeasureLine = true → trim c.effects.toList ≠ [] →
        ∃ bpm, c.slotTempo = some bpm ∧ ((bpm == unsetTempo) = true ∨ c.measureTempo = some bpm)) ∧
      (∀ m ∈ (d.play d.effectiveProgression ⟨defaultBpm, none⟩).moments.dropLast,
        ∃ scopes, d.scopesAt? m.location = some scopes ∧
          m.bpm = innermost scopes (resolveTempo (some defaultBpm) 120.0)) ∧
      Aligned (SectionPass.Keeps d (resolveTempo (some defaultBpm) 120.0)) (d.turns (.whole d.effectiveProgression))
        (d.play d.effectiveProgression ⟨defaultBpm, none⟩).sections) := by
  refine ⟨lint_eq_nil_iff_clean, fun silent defaultBpm => ?_⟩
  have clean := lint_eq_nil_iff_clean.mp silent
  refine ⟨?_, fun m member playable => ?_, fun c member line filled => clean.slot member line filled,
    fun m member => ?_, clean.sections_keep ⟨defaultBpm, none⟩ (.whole d.effectiveProgression)⟩
  · rw [play_problems, problems_of_lint silent]
    rfl
  · have onTimeline : m ∈ (d.answer ⟨defaultBpm, none⟩ (.whole d.effectiveProgression)).moments := member
    exact clean.moment_tag onTimeline playable
  · have inBody : m ∈ (d.answer ⟨defaultBpm, none⟩ (.whole d.effectiveProgression)).body
        (.whole d.effectiveProgression) := member
    exact clean.moment_tempo ⟨defaultBpm, none⟩ inBody

/-- A tab whose measure line sets a tempo, and chords that are strummed at that of their subsection. -/
def tidy : Document :=
  { bpm := some 90.0
    sections := [
      { id := "verse"
        subsections := [
          { content := .tab [.measureLine "m" (some 60.0), .playable "c" "eighth"] },
          { bpm := some 120.0
            content := .chords
              [{ pattern := { noteLength := "quarter", strums := [⟨.off, "v"⟩] }, chords := ["G"] }] }] }] }

theorem tidy_plays :
    tidy.lint = [] ∧ (tidy.play tidy.effectiveProgression ⟨100.0, none⟩).diagnostics = [] ∧
    ∀ m ∈ (tidy.play tidy.effectiveProgression ⟨100.0, none⟩).moments.dropLast,
      ∃ scopes, tidy.scopesAt? m.location = some scopes ∧
        m.bpm = innermost scopes (resolveTempo (some 100.0) 120.0) := by
  have silent : tidy.lint = [] := rfl
  obtain ⟨_, plays⟩ := lint_clean tidy
  obtain ⟨unreported, _, _, inScope, _⟩ := plays silent 100.0
  exact ⟨silent, unreported, inScope⟩

end Document

end Tablature
