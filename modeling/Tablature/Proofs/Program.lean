import Tablature.Playback.Play
import Tablature.Playback.Timeline
import Tablature.Proofs.Score

namespace Tablature

/-- What can be asked to be played of a document: a progression of its sections, or the part at an address. -/
inductive Request where
  | whole (progression : List ProgressionEntry)
  | part (address : Address)

def Document.answer (d : Document) (options : Options) : Request → Playback
  | .whole progression => d.play progression options
  | .part address => d.preview address options

/-- The moments that stand for something in the document. Only a whole progression has one more: its end. -/
def Playback.body (p : Playback) : Request → List Moment
  | .whole _ => p.moments.dropLast
  | .part _ => p.moments

/-- One unit made of the units of a part, kept even if it stays empty. -/
def Part.enclose {α β : Type} (unit : List α → β) (part : Part α) : Part β := fun clock =>
  let run := part clock
  ⟨[unit run.units], run.moments, run.problems, run.cut, run.clock⟩

theorem Part.Performs.enclose {α β : Type} {cap : Option Nat} {part : Part α} {cues : List Cue}
    (whole : part.Performs cap cues) (unit : List α → β) : (part.enclose unit).Performs cap cues := whole

/-- A request whose units were found, with their positions. -/
inductive Program where
  | progression (entries : List ProgressionEntry)
  | oneSection (s : Nat) (unit : Section)
  | oneSubsection (s : Nat) (unit : Section) (t : Nat) (b : Subsection)
  | oneSequence (s : Nat) (unit : Section) (t : Nat) (b : Subsection) (i : Nat) (q : ChordSequence)

def Document.program? (d : Document) : Request → Option Program
  | .whole entries => some (.progression entries)
  | .part address => do
    let unit ← d.sections[address.sectionIndex]?
    match address.subsectionIndex, address.sequenceIndex with
    | none, none => some (.oneSection address.sectionIndex unit)
    | some t, none => (unit.subsections[t]?).map fun b => .oneSubsection address.sectionIndex unit t b
    | some t, some i => do
      let b ← unit.subsections[t]?
      match b.content with
      | .tab _ => none
      | .chords sequences => (sequences[i]?).map fun q => .oneSequence address.sectionIndex unit t b i q
    | none, some _ => none

/-- The units of the program are where it says they are. -/
inductive Program.Placed (d : Document) : Program → Prop
  | progression (entries : List ProgressionEntry) : Placed d (.progression entries)
  | oneSection {s : Nat} {unit : Section} (atUnit : d.sections[s]? = some unit) : Placed d (.oneSection s unit)
  | oneSubsection {s t : Nat} {unit : Section} {b : Subsection} (atUnit : d.sections[s]? = some unit)
      (atB : unit.subsections[t]? = some b) : Placed d (.oneSubsection s unit t b)
  | oneSequence {s t i : Nat} {unit : Section} {b : Subsection} {sequences : List ChordSequence}
      {q : ChordSequence} (atUnit : d.sections[s]? = some unit) (atB : unit.subsections[t]? = some b)
      (content : b.content = .chords sequences) (atQ : sequences[i]? = some q) :
      Placed d (.oneSequence s unit t b i q)

/-- The program plays what is at the address. -/
inductive Document.PartAt (d : Document) : Address → Program → Prop
  | oneSection {s : Nat} {unit : Section} (atUnit : d.sections[s]? = some unit) :
      PartAt d ⟨s, none, none⟩ (.oneSection s unit)
  | oneSubsection {s t : Nat} {unit : Section} {b : Subsection} (atUnit : d.sections[s]? = some unit)
      (atB : unit.subsections[t]? = some b) : PartAt d ⟨s, some t, none⟩ (.oneSubsection s unit t b)
  | oneSequence {s t i : Nat} {unit : Section} {b : Subsection} {sequences : List ChordSequence} {q : ChordSequence}
      (atUnit : d.sections[s]? = some unit) (atB : unit.subsections[t]? = some b)
      (content : b.content = .chords sequences) (atQ : sequences[i]? = some q) :
      PartAt d ⟨s, some t, some i⟩ (.oneSequence s unit t b i q)

theorem Document.program?_part {d : Document} {address : Address} {program : Program}
    (found : d.program? (.part address) = some program) : d.PartAt address program := by
  obtain ⟨s, t?, i?⟩ := address
  obtain ⟨unit, atUnit, rest⟩ := Option.bind_eq_some_iff.mp found
  cases t? with
  | none =>
    cases i? with
    | none => cases rest; exact .oneSection atUnit
    | some i => cases rest
  | some t =>
    cases i? with
    | none =>
      obtain ⟨b, atB, rfl⟩ := Option.map_eq_some_iff.mp rest
      exact .oneSubsection atUnit atB
    | some i =>
      obtain ⟨b, atB, rest⟩ := Option.bind_eq_some_iff.mp rest
      cases content : b.content with
      | tab columns => rw [content] at rest; cases rest
      | chords sequences =>
        rw [content] at rest
        obtain ⟨q, atQ, rfl⟩ := Option.map_eq_some_iff.mp rest
        exact .oneSequence atUnit atB content atQ

theorem Document.PartAt.placed {d : Document} {address : Address} {program : Program}
    (part : d.PartAt address program) : program.Placed d := by
  cases part with
  | oneSection atUnit => exact .oneSection atUnit
  | oneSubsection atUnit atB => exact .oneSubsection atUnit atB
  | oneSequence atUnit atB content atQ => exact .oneSequence atUnit atB content atQ

theorem Document.program?_placed {d : Document} {r : Request} {program : Program}
    (found : d.program? r = some program) : program.Placed d := by
  cases r with
  | whole entries =>
    cases found
    exact .progression entries
  | part address => exact (program?_part found).placed

namespace Program

def part (d : Document) (options : Options) : Program → Part SectionPass
  | progression entries => Part.inOrder (entries.map fun entry => entry.part d options)
  | oneSection s unit =>
    (unit.body options.cap (d.globalTempo options) s).enclose fun passes => ⟨unit.id, unit.title, passes⟩
  | oneSubsection s unit t b =>
    (b.part options.cap (d.globalTempo options) s t).enclose fun passes => ⟨unit.id, unit.title, passes⟩
  | oneSequence s unit t b i q =>
    ((q.part options.cap (resolveTempo b.bpm (d.globalTempo options)) s t i).enclose fun passes =>
      ⟨b.id, resolveTempo b.bpm (d.globalTempo options), .chords passes⟩).enclose fun passes =>
        ⟨unit.id, unit.title, passes⟩

def cues (d : Document) (global : Float) : Program → List Cue
  | progression entries => entries.flatMap fun entry => entry.cues d global
  | oneSection s unit => unit.cues global s
  | oneSubsection s _ t b => b.cues global s t
  | oneSequence s _ t b i q => q.cues (resolveTempo b.bpm global) s t i

theorem part_performs (d : Document) (options : Options) (program : Program) :
    (program.part d options).Performs options.cap (program.cues d (d.globalTempo options)) := by
  cases program with
  | progression entries =>
    exact Part.Performs.sequential.inOrder_map (fun entry => entry.part_performs d options) entries
  | oneSection s unit => exact .enclose (unit.body_performs options.cap (d.globalTempo options) s) _
  | oneSubsection s unit t b => exact .enclose (b.part_performs options.cap (d.globalTempo options) s t) _
  | oneSequence s unit t b i q =>
    exact .enclose (.enclose (q.part_performs options.cap (resolveTempo b.bpm (d.globalTempo options)) s t i) _) _

end Program

/-- What becomes of the moments of a run before the end is put after them. -/
def Request.settle : Request → List Moment → List Moment
  | whole _, moments => rebase moments
  | part _, moments => moments

def Request.close : Request → List Moment → List Moment
  | whole _, moments => closeTimeline (rebase moments)
  | part _, moments => moments

/-- A preview plays the units that its address names, and only complains if there are none. -/
theorem Document.preview_eq (d : Document) (address : Address) (options : Options) :
    d.preview address options = match d.program? (.part address) with
      | some program =>
        ⟨(program.part d options Clock.start).units, (program.part d options Clock.start).moments,
          (program.part d options Clock.start).diagnostics options⟩
      | none => ⟨[], [], [⟨.nothingAt address, none⟩]⟩ := by
  obtain ⟨s, t?, i?⟩ := address
  simp only [preview, program?, Option.bind_eq_bind]
  cases d.sections[s]? with
  | none => rfl
  | some unit =>
    cases t? with
    | none => cases i? <;> rfl
    | some t =>
      cases i? with
      | none =>
        simp only [partAt?, Option.bind_some]
        cases unit.subsections[t]? <;> rfl
      | some i =>
        simp only [partAt?, Option.bind_some, Option.bind_eq_bind]
        cases unit.subsections[t]? with
        | none => rfl
        | some b =>
          obtain ⟨id, bpm, repetitions, content⟩ := b
          cases content with
          | tab columns => rfl
          | chords sequences =>
            simp only [Option.bind_some]
            cases sequences[i]? <;> rfl

theorem Document.answer_found {d : Document} {r : Request} {program : Program}
    (found : d.program? r = some program) (options : Options) :
    d.answer options r =
      ⟨(program.part d options Clock.start).units, r.close (program.part d options Clock.start).moments,
        (program.part d options Clock.start).diagnostics options⟩ := by
  cases r with
  | whole entries =>
    cases found
    rfl
  | part address =>
    have played := d.preview_eq address options
    rw [found] at played
    exact played

theorem Document.answer_lost {d : Document} {r : Request} (lost : d.program? r = none) :
    ∃ address, r = .part address ∧ ∀ options, d.answer options r = ⟨[], [], [⟨.nothingAt address, none⟩]⟩ := by
  cases r with
  | whole entries => cases lost
  | part address =>
    refine ⟨address, rfl, fun options => ?_⟩
    have played := d.preview_eq address options
    rw [lost] at played
    exact played

end Tablature
