import Tablature.Proofs.Capping
import Tablature.Proofs.Elapsed
import Tablature.Proofs.Turns
import Tablature.Proofs.Unrolling

namespace Tablature

/-- What is left of passes that lie one after the other when playing stops before the entry at `place`: those
that end there or before stay as they are, even empty ones. The one that goes on after it is cut there, and is
left out if it would begin there; nothing after it is left. -/
def cutPasses {α : Type} (span : α → Nat) (cut : Nat → α → α) (place : Nat) : List α → List α
  | [] => []
  | pass :: passes =>
    if span pass ≤ place then pass :: cutPasses span cut (place - span pass) passes
    else if place = 0 then []
    else [cut place pass]

/-- How many entries passes have together. -/
def total {α : Type} (span : α → Nat) (passes : List α) : Nat :=
  (passes.map span).sum

/-- How many entries a pass has on a timeline on which nothing is cut short. -/
def SequencePass.span (pass : SequencePass) : Nat :=
  pass.pattern.strums.length

def SubsectionPass.span (pass : SubsectionPass) : Nat :=
  match pass.content with
  | .tab columns _ => columns.length
  | .chords passes => total SequencePass.span passes

def SectionPass.span (pass : SectionPass) : Nat :=
  total SubsectionPass.span pass.subsections

/-- A pass that is cut keeps all it has but the units from the one with the index `cap` on. -/
def SequencePass.cutAt (cap : Nat) (pass : SequencePass) : SequencePass :=
  { pass with indices := pass.indices.filter (· < cap) }

def SubsectionPass.cutAt (cap place : Nat) (pass : SubsectionPass) : SubsectionPass :=
  { pass with
    content := match pass.content with
      | .tab columns indices => .tab columns (indices.filter (· < cap))
      | .chords passes => .chords (cutPasses SequencePass.span (fun _ => SequencePass.cutAt cap) place passes) }

def SectionPass.cutAt (cap place : Nat) (pass : SectionPass) : SectionPass :=
  { pass with subsections := cutPasses SubsectionPass.span (SubsectionPass.cutAt cap) place pass.subsections }

section Passes

variable {α : Type} {span : α → Nat} {cut : Nat → α → α}

theorem total_nil : total span ([] : List α) = 0 := rfl

theorem total_cons (pass : α) (passes : List α) : total span (pass :: passes) = span pass + total span passes := by
  rw [total, List.map_cons, List.sum_cons, total]

theorem total_append (front back : List α) : total span (front ++ back) = total span front + total span back := by
  rw [total, List.map_append, List.sum_append, total, total]

/-- A cut within the first passes leaves nothing of those behind them. -/
theorem cutPasses_front {front : List α} {place : Nat} (within : place < total span front) (back : List α) :
    cutPasses span cut place (front ++ back) = cutPasses span cut place front := by
  induction front generalizing place with
  | nil => exact absurd within (Nat.not_lt_zero place)
  | cons pass front ih =>
    rw [total_cons] at within
    rw [List.cons_append, cutPasses, cutPasses]
    by_cases before : span pass ≤ place
    · rw [if_pos before, if_pos before, ih (by omega)]
    · rw [if_neg before, if_neg before]

theorem cutPasses_back (front back : List α) (place : Nat) :
    cutPasses span cut (total span front + place) (front ++ back) = front ++ cutPasses span cut place back := by
  induction front with
  | nil =>
    rw [total_nil, Nat.zero_add]
    rfl
  | cons pass front ih =>
    have place' : span pass + total span front + place - span pass = total span front + place := by omega
    rw [total_cons, List.cons_append, cutPasses, if_pos (by omega), place', ih, List.cons_append]

end Passes

/-- A run under a cap beside the same without one: it is the same, or it was cut after the moments that it has, and
`trim` says what is then left of its units. -/
structure Run.Trimmed {α : Type} (trim : Nat → List α → List α) (cap : Nat) (run full : Run α) : Prop where
  room : run.clock.index ≤ cap
  uncut : run.cut = false → run = full
  within : run.cut = true → run.moments.length < full.moments.length
  units : run.cut = true → run.units = trim run.moments.length full.units

theorem Run.Trimmed.refl {α : Type} {trim : Nat → List α → List α} {cap : Nat} {run : Run α} (whole : run.cut = false)
    (room : run.clock.index ≤ cap) : run.Trimmed trim cap run := by
  refine ⟨room, fun _ => rfl, fun cutShort => ?_, fun cutShort => ?_⟩ <;>
  · rw [whole] at cutShort
    cases cutShort

/-- The part is not cut short, and from its units one can tell how many moments it plays. -/
def Part.Spans {α : Type} (measure : List α → Nat) (part : Part α) : Prop :=
  ∀ clock, (part clock).cut = false ∧ (part clock).moments.length = measure (part clock).units

/-- With a cap, the part trims what it plays without one. -/
structure Part.Trims {α : Type} (measure : List α → Nat) (trim : Nat → List α → List α) (cap : Nat)
    (capped full : Part α) : Prop where
  spans : full.Spans measure
  trimmed : ∀ clock, clock.index ≤ cap → (capped clock).Trimmed trim cap (full clock)

namespace Part.Trims

variable {α β : Type} {cap : Nat}

section Passes

variable {span : α → Nat} {cut : Nat → α → α}

theorem report (problems : List Diagnostic) :
    (Part.report problems : Part α).Trims (total span) (cutPasses span cut) cap (Part.report problems) where
  spans := fun _ => ⟨rfl, rfl⟩
  trimmed := fun _ room => .refl rfl room

theorem andThen {first full second fullSecond : Part α}
    (firstly : first.Trims (total span) (cutPasses span cut) cap full)
    (then' : second.Trims (total span) (cutPasses span cut) cap fullSecond) :
    (first.andThen second).Trims (total span) (cutPasses span cut) cap (full.andThen fullSecond) where
  spans := by
    intro clock
    obtain ⟨whole, spans⟩ := firstly.spans clock
    obtain ⟨wholeSecond, spansSecond⟩ := then'.spans (full clock).clock
    rw [andThen_of_whole fullSecond whole]
    refine ⟨wholeSecond, ?_⟩
    simp only [Run.append, List.length_append, total_append, spans, spansSecond]
  trimmed := by
    intro clock room
    obtain ⟨whole, spans⟩ := firstly.spans clock
    have front := firstly.trimmed clock room
    rw [andThen_of_whole fullSecond whole]
    cases ended : (first clock).cut with
    | true =>
      have within := front.within ended
      rw [andThen_of_cut second ended]
      refine ⟨front.room, fun uncut => ?_, fun _ => ?_, fun _ => ?_⟩
      · rw [ended] at uncut
        cases uncut
      · simp only [Run.append, List.length_append]
        omega
      · rw [front.units ended]
        exact (cutPasses_front (by omega) _).symm
    | false =>
      have same := front.uncut ended
      have back := then'.trimmed (first clock).clock front.room
      rw [andThen_of_whole second ended, same]
      rw [same] at back
      refine ⟨back.room, fun uncut => ?_, fun cutShort => ?_, fun cutShort => ?_⟩
      · rw [back.uncut uncut]
      · have within := back.within cutShort
        simp only [Run.append, List.length_append]
        omega
      · simp only [Run.append, List.length_append, spans, cutPasses_back]
        rw [back.units cutShort]

theorem sequential : Sequential (fun (capped full : Part α) =>
    capped.Trims (total span) (cutPasses span cut) cap full) inOrder where
  rest := ⟨fun _ => ⟨rfl, rfl⟩, fun _ room => .refl rfl room⟩
  andThen := fun first others => first.andThen others

end Passes

/-- A unit is trimmed with what it has gathered, and is left out if nothing of it was played. -/
theorem gather {measure : List α → Nat} {trim : Nat → List α → List α} {span : β → Nat} {cut : Nat → β → β}
    {unit : List α → β} {capped full : Part α} (inner : capped.Trims measure trim cap full)
    (spans : ∀ units, span (unit units) = measure units)
    (cuts : ∀ place units, cut place (unit units) = unit (trim place units)) :
    (capped.gather unit).Trims (total span) (cutPasses span cut) cap (full.gather unit) := by
  have gathered (clock : Clock) : full.gather unit clock =
      ⟨[unit (full clock).units], (full clock).moments, (full clock).problems, (full clock).cut,
        (full clock).clock⟩ := by
    simp only [Part.gather, (inner.spans clock).1, Bool.false_and, Bool.false_eq_true, if_false]
  constructor
  · intro clock
    obtain ⟨whole, measured⟩ := inner.spans clock
    rw [gathered]
    refine ⟨whole, ?_⟩
    rw [total_cons, spans, ← measured]
    rfl
  · intro clock room
    obtain ⟨whole, measured⟩ := inner.spans clock
    obtain ⟨room, uncut, within, units⟩ := inner.trimmed clock room
    rw [gathered]
    cases ended : (capped clock).cut with
    | false =>
      have same := uncut ended
      have kept : capped.gather unit clock = full.gather unit clock := by simp only [Part.gather, same]
      rw [same] at room
      rw [kept, gathered]
      exact .refl whole room
    | true =>
      have shorter := within ended
      have beyond : ¬span (unit (full clock).units) ≤ (capped clock).moments.length := by
        rw [spans, ← measured]
        omega
      have trims : cutPasses span cut (capped clock).moments.length [unit (full clock).units] =
          if (capped clock).moments.isEmpty then [] else [unit (capped clock).units] := by
        rw [cutPasses, if_neg beyond, cuts, ← units ended]
        cases (capped clock).moments with
        | nil => rfl
        | cons m moments => rfl
      simp only [Part.gather, ended, Bool.true_and]
      refine ⟨room, fun whole => ?_, fun _ => shorter, fun _ => trims.symm⟩
      cases whole

end Part.Trims

namespace Cue

variable {cap : Nat} (cues : List Cue) {clock : Clock}

/-- Unless it is cut short, a performance does not depend on the cap. -/
theorem perform_whole (whole : (perform (some cap) cues clock).cut = false) :
    perform (some cap) cues clock = perform none cues clock := by
  induction cues generalizing clock with
  | nil => rfl
  | cons cue cues ih =>
    cases cue with
    | strike location bpm length =>
      by_cases reached : (some cap).any (· ≤ clock.index) = true
      · rw [perform_strike_reached reached] at whole
        cases whole
      · rw [perform_strike_free reached] at whole ⊢
        rw [perform_strike_uncapped, ih whole]
    | bar location bpm =>
      rw [perform_bar] at whole ⊢
      rw [perform_bar, ih whole]
    | report problem =>
      rw [perform_report] at whole ⊢
      rw [perform_report, ih whole]

theorem perform_range (cap : Option Nat) (cues : List Cue) (clock : Clock) :
    (perform cap cues clock).units = List.range' clock.index (perform cap cues clock).units.length := by
  rw [perform_units, filterMap_index]
  exact (perform_follows cap cues clock).indices

/-- The units that are left under a cap are those with a lower index. -/
theorem perform_units_capped (room : clock.index ≤ cap) :
    (perform (some cap) cues clock).units = (perform none cues clock).units.filter (· < cap) := by
  induction cues generalizing clock with
  | nil => rfl
  | cons cue cues ih =>
    cases cue with
    | strike location bpm length =>
      by_cases reached : (some cap).any (· ≤ clock.index) = true
      · have atCap : cap ≤ clock.index := of_decide_eq_true reached
        rw [perform_strike_reached reached, perform_range]
        symm
        apply List.filter_eq_nil_iff.mpr
        intro n member
        have above := (List.mem_range'_1.mp member).1
        rw [decide_eq_true_eq]
        omega
      · have below : clock.index < cap := Nat.not_le.mp fun atCap => reached (decide_eq_true atCap)
        rw [perform_strike_free reached, perform_strike_uncapped]
        simp only [Run.append, List.singleton_append]
        have kept : decide (clock.index < cap) = true := decide_eq_true below
        have roomAfter : (clock.after bpm length).index ≤ cap := below
        rw [List.filter_cons, kept, if_pos rfl, ih roomAfter]
    | bar location bpm =>
      rw [perform_bar, perform_bar]
      exact ih room
    | report problem =>
      rw [perform_report, perform_report]
      exact ih room

theorem number_length (start : Nat) : (number start cues).length = (cues.filterMap beat?).length := by
  have same := congrArg List.length (number_beats start cues)
  rwa [List.length_map, List.length_mapIdx] at same

/-- An uncapped performance has a moment for every index that its clock went past. -/
theorem perform_has (room : clock.index ≤ cap) (beyond : cap < (perform none cues clock).clock.index) :
    ∃ m ∈ (perform none cues clock).moments, m.index = some cap := by
  have played : cap ∈ (perform none cues clock).units := by
    rw [perform_clock] at beyond
    rw [perform_range]
    exact List.mem_range'_1.mpr ⟨room, beyond⟩
  rw [perform_units] at played
  exact List.mem_filterMap.mp played

/-- A performance is trimmed to the units with a lower index than the cap. -/
theorem perform_trims (cap : Nat) (cues : List Cue) :
    (perform (some cap) cues).Trims (fun _ => (cues.filterMap beat?).length)
      (fun _ units => units.filter (· < cap)) cap (perform none cues) where
  spans := by
    intro clock
    have marks := congrArg List.length (perform_uncapped cues clock)
    rw [List.length_map, number_length] at marks
    exact ⟨perform_uncut cues clock, marks⟩
  trimmed := by
    intro clock room
    obtain ⟨moments, index, cut⟩ := perform_capped cues room
    refine ⟨by omega, perform_whole cues, fun cutShort => ?_, fun _ => perform_units_capped cues room⟩
    obtain ⟨m, member, isCap⟩ := perform_has cues room (of_decide_eq_true (cut.symm.trans cutShort))
    rw [moments]
    apply Nat.lt_of_le_of_ne (List.takeWhile_prefix _).length_le
    intro same
    have all := List.takeWhile_eq_self_iff.mp ((List.takeWhile_prefix _).eq_of_length same)
    exact bne_iff_ne.mp (all m member) isCap

end Cue

theorem ChordSequence.strikes_length (bpm : Float) (s t i : Nat) (q : ChordSequence) :
    ((q.strikes bpm s t i).filterMap Cue.beat?).length = q.pattern.strums.length := by
  rw [strikes_beats, beats, List.length_mapIdx]

theorem Content.tab_length (bpm : Float) (s t : Nat) (columns : List Column) :
    (((Content.tab columns).cues bpm s t).filterMap Cue.beat?).length = columns.length := by
  rw [cues_beats, beats, List.length_mapIdx]

theorem ChordSequence.part_trims (cap : Nat) (enclosing : Float) (s t i : Nat) (q : ChordSequence) :
    (q.part (some cap) enclosing s t i).Trims (total SequencePass.span)
      (cutPasses SequencePass.span fun _ => SequencePass.cutAt cap) cap (q.part none enclosing s t i) := by
  rw [ChordSequence.part_eq, ChordSequence.part_eq]
  refine (Part.Trims.report _).andThen (Part.Trims.sequential.times_both ?_ _)
  refine .gather (Cue.perform_trims cap _) (fun _ => ?_) fun _ _ => ?_
  · exact (q.strikes_length _ s t i).symm
  · rfl

theorem Subsection.pass_trims (cap : Nat) (global : Float) (s t : Nat) (b : Subsection) :
    (b.pass (some cap) global s t).Trims (total SubsectionPass.span)
      (cutPasses SubsectionPass.span (SubsectionPass.cutAt cap)) cap (b.pass none global s t) := by
  unfold Subsection.pass
  cases b.content with
  | tab columns =>
    simp only [tabPass_eq]
    refine .gather (Cue.perform_trims cap _) (fun _ => ?_) fun _ _ => ?_
    · exact (Content.tab_length _ s t columns).symm
    · rfl
  | chords sequences =>
    have inner := Part.Trims.sequential.inOrder_mapIdx sequences fun i q _ =>
      q.part_trims cap (resolveTempo b.bpm global) s t i
    simp only [chordPass]
    refine inner.gather (fun _ => ?_) fun _ _ => ?_
    · rfl
    · rfl

theorem Section.pass_trims (cap : Nat) (global : Float) (s : Nat) (unit : Section) :
    (unit.pass (some cap) global s).Trims (total SectionPass.span)
      (cutPasses SectionPass.span (SectionPass.cutAt cap)) cap (unit.pass none global s) := by
  have inner := Part.Trims.sequential.inOrder_mapIdx unit.subsections fun t b _ =>
    Part.Trims.sequential.times_both (b.pass_trims cap global s t) (passes b.repetitions)
  refine inner.gather (fun _ => ?_) fun _ _ => ?_
  · rfl
  · rfl

theorem ProgressionEntry.part_trims (d : Document) (defaultBpm : Float) (cap : Nat) (entry : ProgressionEntry) :
    (entry.part d ⟨defaultBpm, some cap⟩).Trims (total SectionPass.span)
      (cutPasses SectionPass.span (SectionPass.cutAt cap)) cap (entry.part d ⟨defaultBpm, none⟩) := by
  unfold ProgressionEntry.part
  cases d.section? entry.sectionId with
  | none => exact .report _
  | some found => exact Part.Trims.sequential.times_both (found.2.pass_trims cap _ found.1) _

/-- The passes lie over a timeline one after the other, each over its own stretch of it. -/
def Tiles {α : Type} (Covers : α → List Mark → Prop) : List α → List Mark → Prop
  | [], marks => marks = []
  | pass :: passes, marks => ∃ own rest, marks = own ++ rest ∧ Covers pass own ∧ Tiles Covers passes rest

/-- These marks are all that a pass plays. -/
def SequencePass.Covers (pass : SequencePass) (marks : List Mark) : Prop :=
  marks.length = pass.span ∧ marks.filterMap Mark.index = pass.indices

def SubsectionPass.Covers (pass : SubsectionPass) (marks : List Mark) : Prop :=
  marks.length = pass.span ∧
    match pass.content with
    | .tab _ indices => marks.filterMap Mark.index = indices
    | .chords passes => Tiles SequencePass.Covers passes marks

def SectionPass.Covers (pass : SectionPass) (marks : List Mark) : Prop :=
  marks.length = pass.span ∧ Tiles SubsectionPass.Covers pass.subsections marks

theorem Tiles.length {α : Type} {span : α → Nat} {Covers : α → List Mark → Prop}
    (each : ∀ {pass marks}, Covers pass marks → marks.length = span pass) {passes : List α} {marks : List Mark}
    (tiles : Tiles Covers passes marks) : marks.length = total span passes := by
  induction passes generalizing marks with
  | nil =>
    rw [show marks = [] from tiles]
    rfl
  | cons pass passes ih =>
    obtain ⟨own, rest, rfl, covers, tiles⟩ := tiles
    rw [List.length_append, each covers, ih tiles, total_cons]

/-- Passes that are woven with a timeline lie over it, unless it was cut short. -/
theorem Woven.tiles {σ α : Type} {R : σ → Bool → List Mark → α → Prop} {Covers : α → List Mark → Prop}
    (each : ∀ {turn marks unit}, R turn false marks unit → Covers unit marks) {turns : List σ} {cut : Bool}
    {marks : List Mark} {units : List α} (woven : Woven R turns cut marks units) (whole : cut = false) :
    Tiles Covers units marks := by
  induction woven with
  | done => rfl
  | dropped => cases whole
  | last => cases whole
  | next played _ ih => exact ⟨_, _, rfl, each played, ih whole⟩

theorem SequencePass.Plays.covers {sequences : List ChordSequence} {enclosing : Float} {s t i : Nat}
    {marks : List Mark} {pass : SequencePass} (played : Plays sequences enclosing s t i false marks pass) :
    pass.Covers marks := by
  cases played with
  | mk placed played =>
    refine ⟨?_, rfl⟩
    rw [played.2 rfl, Cue.number_length, ChordSequence.strikes_length]
    rfl

theorem SubsectionPass.Plays.covers {unit : Section} {global : Float} {s : Nat} {turn : SubsectionTurn}
    {marks : List Mark} {pass : SubsectionPass} (played : Plays unit global s turn false marks pass) :
    pass.Covers marks := by
  cases played with
  | tab placed content played =>
    refine ⟨?_, rfl⟩
    rw [played.2 rfl, Cue.number_length, Content.tab_length]
    rfl
  | chords placed content woven =>
    have tiles := woven.tiles (fun played => played.covers) rfl
    exact ⟨tiles.length fun covers => covers.1, tiles⟩

theorem SectionPass.Plays.covers {d : Document} {global : Float} {turn : SectionTurn} {marks : List Mark}
    {pass : SectionPass} (played : Plays d global turn false marks pass) : pass.Covers marks := by
  cases played with
  | mk placed woven =>
    have tiles := woven.tiles (fun played => played.covers) rfl
    exact ⟨tiles.length fun covers => covers.1, tiles⟩

theorem takeWhile_stops {α : Type} {p : α → Bool} {xs : List α} (before : (xs.takeWhile p).length < xs.length) :
    ∃ x, xs[(xs.takeWhile p).length]? = some x ∧ ¬p x = true := by
  induction xs with
  | nil => cases before
  | cons x xs ih =>
    by_cases holds : p x = true
    · rw [List.takeWhile_cons_of_pos holds] at before ⊢
      exact ih (Nat.lt_of_succ_lt_succ before)
    · rw [List.takeWhile_cons_of_neg holds]
      exact ⟨x, rfl, holds⟩

namespace Document

variable (d : Document) (progression : List ProgressionEntry) (defaultBpm : Float) (cap : Nat)

/-- The run behind an answer to a progression. -/
theorem play_trimmed :
    ((Program.progression progression).part d ⟨defaultBpm, some cap⟩ Clock.start).Trimmed
      (cutPasses SectionPass.span (SectionPass.cutAt cap)) cap
      ((Program.progression progression).part d ⟨defaultBpm, none⟩ Clock.start) :=
  (Part.Trims.sequential.inOrder_map (fun entry => entry.part_trims d defaultBpm cap) progression).trimmed
    Clock.start (Nat.zero_le cap)

theorem cap_cuts_moments (r : Request) :
    (d.answer ⟨defaultBpm, some cap⟩ r).body r =
      ((d.answer ⟨defaultBpm, none⟩ r).body r).takeWhile (Moment.isBefore cap) := by
  rw [body_moments, body_moments]
  exact (d.performance_capped defaultBpm cap r).moments

theorem play_moments (options : Options) :
    ((Program.progression progression).part d options Clock.start).moments =
      (d.answer options (.whole progression)).body (.whole progression) := by
  have found : d.program? (.whole progression) = some (.progression progression) := rfl
  rw [body_moments]
  exact (part_performs found options).moments Clock.start

theorem play_cut :
    ((Program.progression progression).part d ⟨defaultBpm, some cap⟩ Clock.start).cut =
      decide (cap < (d.play progression ⟨defaultBpm, none⟩).playableCount) := by
  have found : d.program? (.whole progression) = some (.progression progression) := rfl
  have counted := d.playableCount_eq ⟨defaultBpm, none⟩ (.whole progression)
  change _ = decide (cap < (d.answer ⟨defaultBpm, none⟩ (.whole progression)).playableCount)
  rw [counted, ← (d.performance_capped defaultBpm cap (.whole progression)).cut]
  exact (part_performs found ⟨defaultBpm, some cap⟩).cut Clock.start

/-- A cap cuts the tree of a progression where it cuts the timeline. Without it, the passes of the tree lie over the
timeline one after the other. If the cap is not reached they stay as they are. Otherwise they are cut at the
place of the unit that has the cap as its index: all that ends before is kept whole, and of the passes in which the
place is, each is kept with what it has before unless that is nothing. -/
theorem cap_trims_tree :
    Tiles SectionPass.Covers (d.play progression ⟨defaultBpm, none⟩).sections
        ((d.play progression ⟨defaultBpm, none⟩).moments.dropLast.map Moment.mark) ∧
      ((d.play progression ⟨defaultBpm, none⟩).playableCount ≤ cap →
        (d.play progression ⟨defaultBpm, some cap⟩).sections = (d.play progression ⟨defaultBpm, none⟩).sections) ∧
      (cap < (d.play progression ⟨defaultBpm, none⟩).playableCount →
        ∃ (place : Nat) (m : Moment), (d.play progression ⟨defaultBpm, none⟩).moments[place]? = some m ∧
          m.index = some cap ∧ (d.play progression ⟨defaultBpm, some cap⟩).sections =
            cutPasses SectionPass.span (SectionPass.cutAt cap) place
              (d.play progression ⟨defaultBpm, none⟩).sections) := by
  have trimmed := d.play_trimmed progression defaultBpm cap
  have cutShort := d.play_cut progression defaultBpm cap
  refine ⟨?_, fun few => ?_, fun many => ?_⟩
  · have woven := d.answer_woven ⟨defaultBpm, none⟩ (.whole progression)
    exact woven.tiles (fun played => played.covers) (d.isCut_uncapped defaultBpm _)
  · rw [decide_eq_false (Nat.not_lt.mpr few)] at cutShort
    exact congrArg Run.units (trimmed.uncut cutShort)
  · rw [decide_eq_true many] at cutShort
    have within := trimmed.within cutShort
    have front := (d.cap_cuts_moments defaultBpm cap (.whole progression))
    rw [← play_moments, ← play_moments] at front
    rw [front] at within
    obtain ⟨m, here, isCap⟩ := takeWhile_stops within
    refine ⟨_, m, ?_, ?_, trimmed.units cutShort⟩
    · have closed := d.moments_close ⟨defaultBpm, none⟩ (.whole progression)
      rw [← play_moments] at closed
      change (d.answer ⟨defaultBpm, none⟩ (.whole progression)).moments[_]? = _
      rw [closed, front, List.getElem?_append_left within, here]
    · by_contra other
      exact isCap (bne_iff_ne.mpr other)

end Document

end Tablature
