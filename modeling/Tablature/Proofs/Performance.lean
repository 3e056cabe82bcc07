import Tablature.Proofs.Program

namespace Tablature

theorem dropLast_closeTimeline (moments : List Moment) : (closeTimeline moments).dropLast = moments := by
  unfold closeTimeline
  cases last : moments.getLast? with
  | none => rw [List.getLast?_eq_none_iff.mp last]; rfl
  | some m => rw [Option.map_some, Option.toList_some, List.dropLast_concat]

/-- Settling the times of a run changes nothing else about its moments. -/
theorem Request.settle_marks (r : Request) (moments : List Moment) :
    (r.settle moments).map Moment.mark = moments.map Moment.mark := by
  cases r with
  | part address => rfl
  | whole entries =>
    cases moments with
    | nil => rfl
    | cons first moments =>
      simp only [settle, rebase, List.head?_cons, List.map_map]
      rfl

/-- The cues of a request, none if its units are not there. -/
def Document.cues (d : Document) (options : Options) (r : Request) : List Cue :=
  (d.program? r).elim [] fun program => program.cues d (d.globalTempo options)

def Document.performance (d : Document) (options : Options) (r : Request) : Run Nat :=
  Cue.perform options.cap (d.cues options r) Clock.start

theorem Document.part_performs {d : Document} {r : Request} {program : Program}
    (found : d.program? r = some program) (options : Options) :
    (program.part d options).Performs options.cap (d.cues options r) := by
  rw [cues, found]
  exact program.part_performs d options

/-- The body of an answer is the performance of the cues of the request. -/
theorem Document.body_eq (d : Document) (options : Options) (r : Request) :
    (d.answer options r).body r = r.settle (d.performance options r).moments := by
  cases found : d.program? r with
  | none =>
    obtain ⟨address, rfl, empty⟩ := answer_lost found
    rw [empty, performance, cues, found]
    rfl
  | some program =>
    have same := (part_performs found options).moments Clock.start
    rw [answer_found found]
    cases r with
    | whole entries => exact (dropLast_closeTimeline _).trans (congrArg rebase same)
    | part address => exact same

theorem Document.body_marks (d : Document) (options : Options) (r : Request) :
    ((d.answer options r).body r).map Moment.mark = (d.performance options r).moments.map Moment.mark := by
  rw [body_eq, Request.settle_marks]

/-- A moment of a body was cued. -/
theorem Document.body_cue {d : Document} {options : Options} {r : Request} {m : Moment}
    (member : m ∈ (d.answer options r).body r) : Cue.strike m.location m.bpm m.length ∈ d.cues options r ∨
      Cue.bar m.location m.bpm ∈ d.cues options r ∧ m.length = .measureLine ∧ m.index = none := by
  have marked : m.mark ∈ ((d.answer options r).body r).map Moment.mark := List.mem_map_of_mem member
  rw [body_marks] at marked
  exact Cue.mem_number ((Cue.perform_follows _ _ _).1.subset marked)

/-- The end of a timeline is not among its playable units. -/
theorem Document.body_indices (d : Document) (options : Options) (r : Request) :
    (d.answer options r).moments.filterMap Moment.index =
      ((d.answer options r).body r).filterMap Moment.index := by
  cases r with
  | part address => rfl
  | whole entries =>
    change (closeTimeline _).filterMap Moment.index = (closeTimeline _).dropLast.filterMap Moment.index
    rw [dropLast_closeTimeline, closeTimeline, List.filterMap_append]
    cases List.getLast? _ with
    | none => exact List.append_nil _
    | some last => exact List.append_nil _

theorem Playback.playableCount_indices (p : Playback) :
    p.playableCount = (p.moments.filterMap Moment.index).length :=
  List.length_filterMap_eq_countP.symm

/-- The clock of a performance counts the playable units. -/
theorem Document.playableCount_eq (d : Document) (options : Options) (r : Request) :
    (d.answer options r).playableCount = (d.performance options r).clock.index := by
  rw [Playback.playableCount_indices, body_indices, Cue.filterMap_index, body_marks, ← Cue.filterMap_index,
    performance, ← Cue.perform_units, Cue.perform_clock]
  exact (Nat.zero_add _).symm

theorem Document.playableCount_found {d : Document} {r : Request} {program : Program}
    (found : d.program? r = some program) (options : Options) :
    (d.answer options r).playableCount = (program.part d options Clock.start).clock.index := by
  rw [playableCount_eq, (part_performs found options).clock]
  rfl

/-- Whether the answer was cut short. -/
def Document.isCut (d : Document) (options : Options) (r : Request) : Bool :=
  (d.performance options r).cut

/-- A moment of an answer is in its body, or is the end that is put after the last one there. -/
theorem Document.moments_origin {d : Document} {options : Options} {r : Request} {m : Moment}
    (member : m ∈ (d.answer options r).moments) :
    m ∈ (d.answer options r).body r ∨ ∃ last ∈ (d.answer options r).body r, m = endAfter last := by
  cases r with
  | part address => exact Or.inl member
  | whole entries =>
    change m ∈ closeTimeline _ at member
    change m ∈ (closeTimeline _).dropLast ∨ ∃ last ∈ (closeTimeline _).dropLast, m = endAfter last
    rw [dropLast_closeTimeline]
    rcases List.mem_append.mp member with inBody | atEnd
    · exact Or.inl inBody
    · obtain ⟨last, isLast, same⟩ := Option.map_eq_some_iff.mp (Option.mem_toList.mp atEnd)
      exact Or.inr ⟨last, List.mem_of_getLast? isLast, same.symm⟩

end Tablature
