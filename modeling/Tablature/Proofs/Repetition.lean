import Tablature.Proofs.Deduplication
import Tablature.Proofs.Extension
import Tablature.Proofs.Problems
import Tablature.Proofs.SectionPreview

namespace Tablature

/-- The two runs are the same apart from their problems, which are related by `told`. -/
structure Run.Echoes {α : Type} (told : List Diagnostic → List Diagnostic → Prop) (run other : Run α) : Prop where
  units : run.units = other.units
  moments : run.moments = other.moments
  problems : told run.problems other.problems
  cut : run.cut = other.cut
  clock : run.clock = other.clock

/-- The two parts play the same at any time, and what they report is related by `told`. -/
def Part.Echoes {α : Type} (told : List Diagnostic → List Diagnostic → Prop) (part other : Part α) : Prop :=
  ∀ clock, (part clock).Echoes told (other clock)

/-- Relations of reports that parts in sequence inherit from the parts. -/
def Joins (told : List Diagnostic → List Diagnostic → Prop) : Prop :=
  ∀ front front' back back', told front front' → told back back' → told (front ++ back) (front' ++ back')

namespace Part.Echoes

variable {α : Type} {told : List Diagnostic → List Diagnostic → Prop}

theorem same {part : Part α} (self : ∀ clock, told (part clock).problems (part clock).problems) :
    part.Echoes told part :=
  fun clock => ⟨rfl, rfl, self clock, rfl, rfl⟩

theorem andThen {first second front back : Part α} (joins : Joins told) (firstly : first.Echoes told front)
    (then' : second.Echoes told back) : (first.andThen second).Echoes told (front.andThen back) := by
  intro clock
  have before := firstly clock
  have after := then' (first clock).clock
  cases ended : (first clock).cut with
  | true =>
    have endedToo : (front clock).cut = true := by rw [← before.cut, ended]
    rw [andThen_of_cut second ended, andThen_of_cut back endedToo]
    exact before
  | false =>
    have goesOn : (front clock).cut = false := by rw [← before.cut, ended]
    rw [before.clock] at after
    rw [andThen_of_whole second ended, andThen_of_whole back goesOn, before.clock]
    refine ⟨?_, ?_, joins _ _ _ _ before.problems after.problems, after.cut, after.clock⟩
    · rw [Run.append, Run.append, before.units, after.units]
    · rw [Run.append, Run.append, before.moments, after.moments]

end Part.Echoes

theorem Part.times_report {α : Type} (problems : List Diagnostic) (n : Nat) (clock : Clock) :
    (Part.report problems : Part α).times n clock = ⟨[], [], (List.replicate n problems).flatten, false, clock⟩ := by
  induction n with
  | zero => rfl
  | succ n ih =>
    have step : (Part.report problems : Part α).times (n + 1) clock =
        Run.append ⟨[], [], problems, false, clock⟩ ((Part.report problems : Part α).times n clock) := rfl
    rw [step, ih, Run.append, List.replicate_succ, List.flatten_cons]
    rfl

theorem eraseDups_again (p : Diagnostic) (n : Nat) :
    (List.replicate (n + 1) [p]).flatten.eraseDups = [p] := by
  have others : ((List.replicate n [p]).flatten.filter fun q => !q == p) = [] := by
    refine List.filter_eq_nil_iff.mpr fun q member => ?_
    obtain ⟨group, inGroups, inGroup⟩ := List.mem_flatten.mp member
    rw [List.eq_of_mem_replicate inGroups] at inGroup
    rw [List.mem_singleton.mp inGroup]
    simp only [BEq.rfl, Bool.not_true, Bool.false_eq_true, not_false_eq_true]
  rw [List.replicate_succ, List.flatten_cons, List.singleton_append, List.eraseDups_cons, others, List.eraseDups_nil]

/-- The same reports are seen first. -/
def SameSights (reports others : List Diagnostic) : Prop :=
  reports.eraseDups = others.eraseDups

theorem joins_sameSights : Joins SameSights :=
  fun _ _ _ _ => eraseDups_append_congr

/-- The second reports are the first ones without those about missing sections. -/
def LeavesMissing (reports others : List Diagnostic) : Prop :=
  others = reports.filter fun p => p.kind != .unresolvedSection

theorem joins_leavesMissing : Joins LeavesMissing := by
  rintro front _ back _ rfl rfl
  exact (List.filter_append ..).symm

/-- To play an entry as often as it repeats is to play as many entries for its section once, whatever else they
say. -/
theorem ProgressionEntry.part_unrolls {d : Document} {entry : ProgressionEntry} {unrolled : List ProgressionEntry}
    (length : unrolled.length = passes entry.repetitions)
    (each : ∀ single ∈ unrolled, single.sectionId = entry.sectionId ∧ single.repetitions = 1) (options : Options) :
    (entry.part d options).Echoes SameSights
      (Part.inOrder (unrolled.map fun single => single.part d options)) := by
  cases found : d.section? entry.sectionId with
  | some place =>
    obtain ⟨s, unit⟩ := place
    have alike : (unrolled.map fun single => single.part d options) =
        List.replicate (passes entry.repetitions) (unit.pass options.cap (d.globalTempo options) s) := by
      refine List.eq_replicate_iff.mpr ⟨by rw [List.length_map, length], fun part member => ?_⟩
      obtain ⟨single, inUnrolled, rfl⟩ := List.mem_map.mp member
      obtain ⟨names, once⟩ := each single inUnrolled
      exact Document.entry_once (by rw [names, found]) (passes_of_once (Or.inr once)) options
    have repeated : entry.part d options =
        (unit.pass options.cap (d.globalTempo options) s).times (passes entry.repetitions) := by
      unfold part
      rw [found]
    rw [alike, Part.inOrder_replicate, repeated]
    exact .same fun _ => rfl
  | none =>
    have missing (other : ProgressionEntry) (names : other.sectionId = entry.sectionId) :
        other.part d options = Part.report [⟨.missingSection entry.sectionId, none⟩] := by
      unfold part
      rw [names, found]
    have alike : (unrolled.map fun single => single.part d options) =
        List.replicate (passes entry.repetitions) (Part.report [⟨.missingSection entry.sectionId, none⟩]) := by
      refine List.eq_replicate_iff.mpr ⟨by rw [List.length_map, length], fun part member => ?_⟩
      obtain ⟨single, inUnrolled, rfl⟩ := List.mem_map.mp member
      exact missing single (each single inUnrolled).1
    obtain ⟨more, atLeastOnce⟩ : ∃ n, passes entry.repetitions = n + 1 :=
      ⟨passes entry.repetitions - 1, by unfold passes; omega⟩
    rw [alike, Part.inOrder_replicate, missing entry rfl]
    intro clock
    rw [Part.times_report, atLeastOnce]
    exact ⟨rfl, rfl, (eraseDups_again _ more).symm, rfl, rfl⟩

theorem ProgressionEntry.problems_kind {d : Document} {entry : ProgressionEntry} {place : Nat × Section}
    (found : d.section? entry.sectionId = some place) {p : Diagnostic} (met : p ∈ entry.problems d) :
    p.kind = .unknownNoteLength := by
  unfold problems at met
  rw [found] at met
  obtain ⟨t, b, _, inPasses⟩ := mem_flatten_mapIdx.mp (mem_eachPass.mp met)
  exact Content.problems_kind (mem_eachPass.mp inPasses)

theorem ProgressionEntry.part_problems_kind {d : Document} {entry : ProgressionEntry} {place : Nat × Section}
    (found : d.section? entry.sectionId = some place) {options : Options} {clock : Clock} {p : Diagnostic}
    (met : p ∈ (entry.part d options clock).problems) : p.kind = .unknownNoteLength := by
  rw [(entry.part_performs d options).problems clock] at met
  have cued := (Cue.perform_problems options.cap _ clock).1.subset met
  rw [ProgressionEntry.cues_problems] at cued
  exact problems_kind found cued

namespace Document

variable (d : Document) (options : Options)

/-- Whether the entry names a section of the document. -/
def resolves (entry : ProgressionEntry) : Bool :=
  (d.section? entry.sectionId).isSome

theorem partOf_cons (entry : ProgressionEntry) (progression : List ProgressionEntry) :
    d.partOf options (entry :: progression) = (entry.part d options).andThen (d.partOf options progression) := rfl

theorem play_unrolled (front : List ProgressionEntry) (entry : ProgressionEntry) (back unrolled : List ProgressionEntry)
    (length : unrolled.length = passes entry.repetitions)
    (each : ∀ single ∈ unrolled, single.sectionId = entry.sectionId ∧ single.repetitions = 1) :
    d.play (front ++ unrolled ++ back) options = d.play (front ++ [entry] ++ back) options := by
  have self (progression : List ProgressionEntry) :
      (d.partOf options progression).Echoes SameSights (d.partOf options progression) := .same fun _ => rfl
  have single : (d.partOf options [entry]).Echoes SameSights (d.partOf options unrolled) := by
    have alone : d.partOf options [entry] = entry.part d options := Part.andThen_rest _
    rw [alone]
    exact entry.part_unrolls length each options
  have echoes : (d.partOf options (front ++ [entry] ++ back)).Echoes SameSights
      (d.partOf options (front ++ unrolled ++ back)) := by
    simp only [partOf_append]
    exact .andThen joins_sameSights (.andThen joins_sameSights (self front) single) (self back)
  obtain ⟨units, moments, problems, cut, _⟩ := echoes Clock.start
  have told : (d.runOf options (front ++ [entry] ++ back)).diagnostics options =
      (d.runOf options (front ++ unrolled ++ back)).diagnostics options := by
    unfold Run.diagnostics runOf
    rw [cut]
    exact eraseDups_append_congr problems rfl
  rw [play_eq, play_eq, told]
  unfold runOf
  rw [units, moments]

/-- Entries that name no section add nothing but the report of it. -/
theorem partOf_resolving (progression : List ProgressionEntry) :
    (d.partOf options progression).Echoes LeavesMissing (d.partOf options (progression.filter d.resolves)) := by
  induction progression with
  | nil => exact .same fun _ => rfl
  | cons entry progression ih =>
    cases found : d.section? entry.sectionId with
    | some place =>
      have resolved : d.resolves entry = true := by rw [resolves, found, Option.isSome_some]
      have nothingMissing (clock : Clock) :
          LeavesMissing (entry.part d options clock).problems (entry.part d options clock).problems := by
        refine (List.filter_eq_self.mpr fun p met => ?_).symm
        rw [ProgressionEntry.part_problems_kind found met]
        rfl
      rw [List.filter_cons_of_pos resolved, partOf_cons, partOf_cons]
      exact .andThen joins_leavesMissing (.same nothingMissing) ih
    | none =>
      have unresolved : ¬d.resolves entry = true := by
        rw [resolves, found, Option.isSome_none]
        exact Bool.false_ne_true
      have missing : entry.part d options = Part.report [⟨.missingSection entry.sectionId, none⟩] := by
        unfold ProgressionEntry.part
        rw [found]
      rw [List.filter_cons_of_neg unresolved, partOf_cons, missing]
      intro clock
      obtain ⟨units, moments, problems, cut, after⟩ := ih clock
      refine ⟨units, moments, ?_, cut, after⟩
      rw [LeavesMissing, problems]
      rfl

/-- Which missing sections are met before playing stops. -/
theorem partOf_missing {progression : List ProgressionEntry} {clock : Clock} {p : Diagnostic}
    (kind : p.kind = .unresolvedSection) :
    p ∈ (d.partOf options progression clock).problems ↔ ∃ i entry, progression[i]? = some entry ∧
      d.section? entry.sectionId = none ∧ (d.partOf options (progression.take i) clock).cut = false ∧
      p = ⟨.missingSection entry.sectionId, none⟩ := by
  induction progression generalizing clock with
  | nil =>
    constructor
    · intro met
      cases met
    · rintro ⟨i, entry, inRange, _⟩
      cases inRange
  | cons entry progression ih =>
    -- What the first entry reports is about a missing section exactly if its own is missing.
    have first : p ∈ (entry.part d options clock).problems ↔
        d.section? entry.sectionId = none ∧ p = ⟨.missingSection entry.sectionId, none⟩ := by
      cases found : d.section? entry.sectionId with
      | some place =>
        constructor
        · intro met
          rw [ProgressionEntry.part_problems_kind found met] at kind
          cases kind
        · rintro ⟨missing, _⟩
          cases missing
      | none =>
        unfold ProgressionEntry.part
        rw [found]
        exact List.mem_singleton.trans (and_iff_right rfl).symm
    rw [partOf_cons]
    cases ended : (entry.part d options clock).cut with
    | true =>
      rw [Part.andThen_of_cut _ ended, first]
      constructor
      · rintro ⟨missing, rfl⟩
        exact ⟨0, entry, rfl, missing, rfl, rfl⟩
      · rintro ⟨i, other, there, missing, goesOn, rfl⟩
        cases i with
        | zero =>
          cases there
          exact ⟨missing, rfl⟩
        | succ i =>
          rw [List.take_succ_cons, partOf_cons, Part.andThen_of_cut _ ended, ended] at goesOn
          cases goesOn
    | false =>
      rw [Part.andThen_of_whole _ ended, Run.append, List.mem_append, first, ih]
      constructor
      · rintro (⟨missing, rfl⟩ | ⟨i, other, there, missing, goesOn, rfl⟩)
        · exact ⟨0, entry, rfl, missing, rfl, rfl⟩
        · refine ⟨i + 1, other, there, missing, ?_, rfl⟩
          rw [List.take_succ_cons, partOf_cons, Part.andThen_of_whole _ ended]
          exact goesOn
      · rintro ⟨i, other, there, missing, goesOn, rfl⟩
        cases i with
        | zero =>
          cases there
          exact Or.inl ⟨missing, rfl⟩
        | succ i =>
          rw [List.take_succ_cons, partOf_cons, Part.andThen_of_whole _ ended] at goesOn
          exact Or.inr ⟨i, other, there, missing, goesOn, rfl⟩

theorem play_resolving (progression : List ProgressionEntry) :
    (d.play (progression.filter d.resolves) options).sections = (d.play progression options).sections ∧
    (d.play (progression.filter d.resolves) options).moments = (d.play progression options).moments ∧
    (d.play (progression.filter d.resolves) options).diagnostics =
      (d.play progression options).diagnostics.filter fun p => p.kind != .unresolvedSection := by
  obtain ⟨units, moments, problems, cut, _⟩ := d.partOf_resolving options progression Clock.start
  rw [play_eq, play_eq]
  refine ⟨units.symm, congrArg (fun played => closeTimeline (rebase played)) moments.symm, ?_⟩
  unfold Run.diagnostics runOf
  rw [← eraseDups_filter, List.filter_append, ← cut, ← problems]
  split <;> rfl

theorem mem_play_missing {progression : List ProgressionEntry} {p : Diagnostic} (kind : p.kind = .unresolvedSection) :
    p ∈ (d.play progression options).diagnostics ↔ ∃ i entry, progression[i]? = some entry ∧
      d.section? entry.sectionId = none ∧ ¬(d.play (progression.take i) options).IsTruncated ∧
      p = ⟨.missingSection entry.sectionId, none⟩ := by
  have otherEnding : p ∉ (if (d.runOf options progression).cut then
      [⟨.truncated (options.cap.getD 0), none⟩] else [] : List Diagnostic) := by
    intro ending
    split at ending
    · cases List.mem_singleton.mp ending
      cases kind
    · cases ending
  rw [play_eq]
  unfold Run.diagnostics
  rw [List.mem_eraseDups, List.mem_append, or_iff_left otherEnding, runOf, d.partOf_missing options kind]
  simp only [← runOf_cut, Bool.not_eq_true]
  rfl

/-- To play an entry several times is to play that many entries for its section once. Entries for missing sections
are reported, each id once if playing gets there, and change nothing else. -/
theorem repetitions_unroll :
    (∀ front entry back unrolled, unrolled.length = max 1 entry.repetitions.toNat →
      (∀ single ∈ unrolled, single.sectionId = entry.sectionId ∧ single.repetitions = 1) →
      d.play (front ++ unrolled ++ back) options = d.play (front ++ [entry] ++ back) options) ∧
    ∀ progression,
      (d.play (progression.filter d.resolves) options).sections = (d.play progression options).sections ∧
      (d.play (progression.filter d.resolves) options).moments = (d.play progression options).moments ∧
      (d.play (progression.filter d.resolves) options).diagnostics =
        (d.play progression options).diagnostics.filter (fun p => p.kind != .unresolvedSection) ∧
      (d.play progression options).diagnostics.Nodup ∧
      ∀ p, p.kind = .unresolvedSection → (p ∈ (d.play progression options).diagnostics ↔
        ∃ i entry, progression[i]? = some entry ∧ d.section? entry.sectionId = none ∧
          ¬(d.play (progression.take i) options).IsTruncated ∧ p = ⟨.missingSection entry.sectionId, none⟩) := by
  refine ⟨fun front entry back unrolled length each => d.play_unrolled options front entry back unrolled length each,
    fun progression => ?_⟩
  obtain ⟨sections, moments, diagnostics⟩ := d.play_resolving options progression
  exact ⟨sections, moments, diagnostics, eraseDups_nodup _, fun p kind => d.mem_play_missing options kind⟩

/-- An entry that is told apart from others of its section by its id and title. -/
def namedEntry (id title sectionId : String) : ProgressionEntry :=
  { ProgressionEntry.playing sectionId 1 with id, title }

theorem verse_unrolls :
    verseAndChorus.play [.playing "lost" 1, namedEntry "a" "Once" "verse", namedEntry "b" "Again" "verse",
        .playing "chorus" 1] ⟨120.0, some 1⟩ =
      verseAndChorus.play [.playing "lost" 1, .playing "verse" 2, .playing "chorus" 1] ⟨120.0, some 1⟩ ∧
    (verseAndChorus.play [.playing "lost" 2, .playing "verse" 2, .playing "gone" 1] ⟨120.0, some 1⟩).diagnostics.filter
      (fun p => p.kind != .unresolvedSection) = [⟨.truncated 1, none⟩] ∧
    (⟨.missingSection "lost", none⟩ : Diagnostic) ∈
      (verseAndChorus.play [.playing "lost" 2, .playing "verse" 2, .playing "gone" 1] ⟨120.0, some 1⟩).diagnostics := by
  obtain ⟨unrolls, resolving⟩ := repetitions_unroll verseAndChorus ⟨120.0, some 1⟩
  obtain ⟨_, _, diagnostics, _, missing⟩ :=
    resolving [.playing "lost" 2, .playing "verse" 2, .playing "gone" 1]
  have each : ∀ single ∈ [namedEntry "a" "Once" "verse", namedEntry "b" "Again" "verse"],
      single.sectionId = (ProgressionEntry.playing "verse" 2).sectionId ∧ single.repetitions = 1 := by decide
  have begins : ¬(verseAndChorus.play [] ⟨120.0, some 1⟩).IsTruncated := by
    rintro ⟨problem, member, _⟩
    cases member
  refine ⟨unrolls [.playing "lost" 1] (.playing "verse" 2) [.playing "chorus" 1] _ rfl each, ?_, ?_⟩
  · rw [← diagnostics]
    rfl
  · exact (missing _ rfl).mpr ⟨0, .playing "lost" 2, rfl, rfl, begins, rfl⟩

end Document

end Tablature
