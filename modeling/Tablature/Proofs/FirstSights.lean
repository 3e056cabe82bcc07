import Tablature.Proofs.Deduplication
import Tablature.Proofs.Problems
import Tablature.Proofs.Wording

namespace Tablature

/-- Adds reports to those that were seen, each unless it was seen before. -/
def addReports (seen reports : List Diagnostic) : List Diagnostic :=
  reports.foldl (fun seen p => if p ∈ seen then seen else seen ++ [p]) seen

/-- Takes the reports of parts together, part by part. -/
def gatherReports (parts : List (List Diagnostic)) : List Diagnostic :=
  parts.foldl addReports []

/-- What a pass of a subsection reports, collected while its columns or chord sequences go by. -/
def Content.reports (s t : Nat) : Content → List Diagnostic
  | .tab columns => gatherReports (columns.mapIdx fun c column => column.problems (.column s t c))
  | .chords sequences => gatherReports (sequences.mapIdx fun i q => q.problems s t i)

/-- What all passes of a subsection report, each pass with a list of its own. -/
def Subsection.reports (s t : Nat) (b : Subsection) : List Diagnostic :=
  gatherReports (List.replicate (passes b.repetitions) (b.content.reports s t))

def Section.reports (s : Nat) (unit : Section) : List Diagnostic :=
  gatherReports (unit.subsections.mapIdx fun t b => b.reports s t)

/-- What each pass of the section of an entry reports. -/
def ProgressionEntry.reports (d : Document) (entry : ProgressionEntry) : List (List Diagnostic) :=
  match d.section? entry.sectionId with
  | some (s, unit) => List.replicate (passes entry.repetitions) (unit.reports s)
  | none => [[⟨.missingSection entry.sectionId, none⟩]]

/-- What a progression reports where every unit keeps its own list without repeats, and hands it on to the unit
around it. -/
def Document.reports (d : Document) (progression : List ProgressionEntry) : List Diagnostic :=
  gatherReports (progression.flatMap fun entry => entry.reports d)

theorem addReports_eq {seen : List Diagnostic} (distinct : seen.Nodup) (reports : List Diagnostic) :
    addReports seen reports = (seen ++ reports).eraseDups := by
  induction reports generalizing seen with
  | nil => rw [List.append_nil, eraseDups_of_nodup distinct]; rfl
  | cons p reports ih =>
    by_cases known : p ∈ seen
    · have step : addReports seen (p :: reports) = addReports seen reports := by
        rw [addReports, List.foldl_cons, if_pos known]
        rfl
      have again : (seen ++ [p]).eraseDups = seen.eraseDups := by
        have nothing : [p].removeAll seen = [] := by
          refine List.filter_eq_nil_iff.mpr fun q member => ?_
          rw [List.mem_singleton.mp member]
          simp only [List.elem_eq_contains, List.contains_eq_mem, known, decide_true, Bool.not_true,
            Bool.false_eq_true, not_false_eq_true]
        rw [List.eraseDups_append, nothing, List.eraseDups_nil, List.append_nil]
      rw [step, ih distinct, ← List.singleton_append, ← List.append_assoc]
      exact eraseDups_append_congr again.symm rfl
    · have step : addReports seen (p :: reports) = addReports (seen ++ [p]) reports := by
        rw [addReports, List.foldl_cons, if_neg known]
        rfl
      have apart : (seen ++ [p]).Nodup := by
        refine List.nodup_append.mpr ⟨distinct, List.pairwise_singleton _ p, fun q inSeen r isP same => ?_⟩
        rw [same, List.mem_singleton.mp isP] at inSeen
        exact known inSeen
      rw [step, ih apart, List.append_assoc, List.singleton_append]

/-- To go by parts that keep lists of their own is to keep the first sights of everything they report. -/
theorem gatherReports_eq (parts : List (List Diagnostic)) : gatherReports parts = parts.flatten.eraseDups := by
  have onward (seen : List Diagnostic) (distinct : seen.Nodup) :
      parts.foldl addReports seen = (seen ++ parts.flatten).eraseDups := by
    induction parts generalizing seen with
    | nil => rw [List.flatten_nil, List.append_nil, eraseDups_of_nodup distinct]; rfl
    | cons reports parts ih =>
      have apart : (seen ++ reports).eraseDups.Nodup := eraseDups_nodup _
      rw [List.foldl_cons, addReports_eq distinct, ih _ apart, List.flatten_cons, ← List.append_assoc]
      exact eraseDups_append_congr (eraseDups_idem _) rfl
  exact onward [] List.nodup_nil

theorem Content.reports_eq (s t : Nat) (content : Content) :
    content.reports s t = (content.problems s t).eraseDups := by
  cases content with
  | tab columns => exact gatherReports_eq _
  | chords sequences => exact gatherReports_eq _

theorem gatherReports_passes (n : Nat) (problems : List Diagnostic) :
    gatherReports (List.replicate n problems.eraseDups) = (List.replicate n problems).flatten.eraseDups := by
  rw [gatherReports_eq, ← List.map_replicate, eraseDups_flatten]

theorem Section.reports_eq (s : Nat) (unit : Section) : unit.reports s = (unit.problems s).eraseDups := by
  have each : (unit.subsections.mapIdx fun t b => b.reports s t) =
      (unit.subsections.mapIdx fun t b => eachPass b.repetitions (b.content.problems s t)).map List.eraseDups := by
    rw [map_mapIdx]
    simp only [Subsection.reports, Content.reports_eq, gatherReports_passes]
    rfl
  rw [reports, gatherReports_eq, each, eraseDups_flatten]
  rfl

theorem ProgressionEntry.reports_eq (d : Document) (entry : ProgressionEntry) :
    (entry.reports d).flatten.eraseDups = (entry.problems d).eraseDups := by
  unfold reports problems
  cases d.section? entry.sectionId with
  | none => rfl
  | some place =>
    have passes := gatherReports_passes (passes entry.repetitions) (place.2.problems place.1)
    rw [gatherReports_eq, ← Section.reports_eq] at passes
    exact passes

theorem Document.reports_eq (d : Document) (progression : List ProgressionEntry) :
    d.reports progression = (d.problems progression).eraseDups := by
  rw [reports, gatherReports_eq, problems]
  induction progression with
  | nil => rfl
  | cons entry progression ih =>
    rw [List.flatMap_cons, List.flatten_append, List.flatMap_cons]
    exact eraseDups_append_congr (entry.reports_eq d) ih

theorem Column.problems_eq (location : Location) (c : Column) :
    c.problems location = if c.isMeasureLine ∨ c.noteLength ∈ playableTags then []
      else [⟨.unknownLength c.noteLength, some location⟩] := by
  unfold problems
  by_cases line : c.isMeasureLine = true
  · rw [if_pos line, if_pos (Or.inl line)]
  · rw [if_neg line]
    unfold playableLength
    cases known : NoteLength.ofTag? c.noteLength with
    | none =>
      have faulty : ¬(c.isMeasureLine = true ∨ c.noteLength ∈ playableTags) := by
        rintro (isLine | playable)
        · exact line isLine
        · obtain ⟨length, found, _⟩ := mem_playableTags.mp playable
          rw [known] at found
          cases found
      rw [if_neg faulty]
      rfl
    | some length =>
      have playable := Column.isPlayable_of_known line known
      rw [if_pos (Or.inr (mem_playableTags.mpr ⟨length, known, playable⟩))]
      simp only [if_pos playable]
      rfl

theorem ChordSequence.problems_eq (s t i : Nat) (q : ChordSequence) :
    q.problems s t i = if q.pattern.noteLength ∈ playableTags then []
      else if q.pattern.noteLength = NoteLength.measureLine.tag then
        [⟨.timelessLength q.pattern.noteLength, some (.strum s t i 0)⟩]
      else [⟨.unknownLength q.pattern.noteLength, some (.strum s t i 0)⟩] := by
  unfold problems playableLength
  cases known : NoteLength.ofTag? q.pattern.noteLength with
  | none =>
    have faulty : q.pattern.noteLength ∉ playableTags := by
      intro playable
      obtain ⟨length, found, _⟩ := mem_playableTags.mp playable
      rw [known] at found
      cases found
    have notLine : q.pattern.noteLength ≠ NoteLength.measureLine.tag := by
      intro line
      rw [line, NoteLength.ofTag?_tag] at known
      cases known
    rw [if_neg faulty, if_neg notLine]
    rfl
  | some length =>
    have tag := NoteLength.ofTag?_eq_some_iff.mp known
    by_cases playable : length.isPlayable = true
    · rw [if_pos (mem_playableTags.mpr ⟨length, known, playable⟩)]
      simp only [if_pos playable]
      rfl
    · have isLine : length = .measureLine := Decidable.not_not.mp fun other => playable (bne_iff_ne.mpr other)
      have faulty : q.pattern.noteLength ∉ playableTags := by
        rw [← tag, isLine]
        decide
      rw [if_neg faulty, if_pos (by rw [← tag, isLine])]
      simp only [if_neg playable]
      rfl

theorem playableLength_arises {tag : String} {problem : Problem} (reported : (playableLength tag).2 = some problem) :
    problem.ArisesInPlay := by
  unfold playableLength at reported
  split at reported
  · split at reported
    · cases reported
    · cases reported
      exact .timelessLength tag
  · cases reported
    exact .unknownLength tag

theorem Content.problems_arise {s t : Nat} {content : Content} {p : Diagnostic} (met : p ∈ content.problems s t) :
    p.problem.ArisesInPlay := by
  cases mem_problems.mp met with
  | column _ length _ => exact playableLength_arises length
  | sequence _ length => exact playableLength_arises length

namespace Document

variable {d : Document} {progression : List ProgressionEntry}

theorem problems_arise {p : Diagnostic} (met : p ∈ d.problems progression) : p.problem.ArisesInPlay := by
  rcases mem_problems.mp met with ⟨entry, _, _, rfl⟩ | ⟨s, t, unit, b, _, _, _, inB⟩
  · exact .missingSection entry.sectionId
  · exact Content.problems_arise inB

theorem problems_warn {p : Diagnostic} (met : p ∈ d.problems progression) : p.severity = .warning := by
  have arises := problems_arise met
  obtain ⟨problem, place⟩ := p
  cases arises <;> rfl

/-- A column with a tag that stands for no length is met wherever its section is played. -/
theorem mem_problems_column {s t c : Nat} {unit : Section} {b : Subsection} {columns : List Column} {column : Column}
    (reached : d.Reaches progression s) (atUnit : d.sections[s]? = some unit) (atB : unit.subsections[t]? = some b)
    (content : b.content = .tab columns) (atColumn : columns[c]? = some column)
    (unknown : NoteLength.ofTag? column.noteLength = none) :
    (⟨.unknownLength column.noteLength, some (.column s t c)⟩ : Diagnostic) ∈ d.problems progression := by
  have played : column.isMeasureLine = false := by
    rw [Bool.eq_false_iff]
    intro line
    rw [beq_iff_eq.mp line, NoteLength.ofTag?_tag] at unknown
    cases unknown
  have length : (playableLength column.noteLength).2 = some (.unknownLength column.noteLength) := by
    unfold playableLength
    rw [unknown]
  have meets : b.content.Meets s t ⟨.unknownLength column.noteLength, some (.column s t c)⟩ := by
    rw [content]
    exact .column atColumn length played
  exact mem_problems.mpr (Or.inr ⟨s, t, unit, b, reached, atUnit, atB, Content.mem_problems.mpr meets⟩)

/-- Without a cap, playing reports the problems that it meets in their order, each where it is seen first, and so no
two that are told alike; to keep a list for every unit and hand it on comes to the same. A column is met with a tag
that stands for no length, and a chord sequence with one that cannot be played, at its first strum, be that there or
not. Columns at different places are reported each, even if they share the tag. -/
theorem problems_told_once (d : Document) (progression : List ProgressionEntry) (defaultBpm : Float) :
    (d.play progression ⟨defaultBpm, none⟩).diagnostics = (d.problems progression).eraseDups ∧
    (d.play progression ⟨defaultBpm, none⟩).diagnostics.map Diagnostic.told =
      ((d.problems progression).map Diagnostic.told).eraseDups ∧
    ((d.play progression ⟨defaultBpm, none⟩).diagnostics.map Diagnostic.told).Nodup ∧
    (d.play progression ⟨defaultBpm, none⟩).diagnostics = d.reports progression ∧
    (∀ p ∈ (d.play progression ⟨defaultBpm, none⟩).diagnostics, p.severity = .warning) ∧
    (∀ location (c : Column), c.problems location = if c.isMeasureLine ∨ c.noteLength ∈ playableTags then []
      else [⟨.unknownLength c.noteLength, some location⟩]) ∧
    (∀ s t i (q : ChordSequence), q.problems s t i = if q.pattern.noteLength ∈ playableTags then []
      else if q.pattern.noteLength = NoteLength.measureLine.tag then
        [⟨.timelessLength q.pattern.noteLength, some (.strum s t i 0)⟩]
      else [⟨.unknownLength q.pattern.noteLength, some (.strum s t i 0)⟩]) ∧
    ∀ s t c unit b columns column, d.Reaches progression s → d.sections[s]? = some unit →
      unit.subsections[t]? = some b → b.content = .tab columns → columns[c]? = some column →
      NoteLength.ofTag? column.noteLength = none →
        ⟨.unknownLength column.noteLength, some (.column s t c)⟩ ∈
          (d.play progression ⟨defaultBpm, none⟩).diagnostics := by
  have reported := d.play_problems progression defaultBpm
  have apart : ∀ p ∈ d.problems progression, ∀ q ∈ d.problems progression, p.told = q.told → p = q :=
    fun p first q second => Diagnostic.told_inj (problems_arise first) (problems_arise second)
  have told : (d.play progression ⟨defaultBpm, none⟩).diagnostics.map Diagnostic.told =
      ((d.problems progression).map Diagnostic.told).eraseDups := by
    rw [reported, eraseDups_map Diagnostic.told apart]
  refine ⟨reported, told, ?_, ?_, fun p member => ?_, Column.problems_eq, ChordSequence.problems_eq, ?_⟩
  · rw [told]
    exact eraseDups_nodup _
  · rw [reported, reports_eq]
  · exact problems_warn (mem_play_problems.mp member)
  · intro s t c unit b columns column reached atUnit atB content atColumn unknown
    exact mem_play_problems.mpr (mem_problems_column reached atUnit atB content atColumn unknown)

/-- Two columns with a tag that stands for no length. -/
def twins : Document :=
  { sections := [{ id := "verse", subsections := [{
      content := .tab [.playable "a" "half", .playable "b" "half"] }] }] }

theorem twins_told :
    (⟨.unknownLength "half", some (.column 0 0 0)⟩ : Diagnostic) ∈
      (twins.play [.playing "verse" 2] ⟨120.0, none⟩).diagnostics ∧
    (⟨.unknownLength "half", some (.column 0 0 1)⟩ : Diagnostic) ∈
      (twins.play [.playing "verse" 2] ⟨120.0, none⟩).diagnostics ∧
    ((twins.play [.playing "verse" 2] ⟨120.0, none⟩).diagnostics.map Diagnostic.told).Nodup := by
  obtain ⟨_, _, distinct, _, _, _, _, met⟩ := problems_told_once twins [.playing "verse" 2] 120.0
  have reached : twins.Reaches [.playing "verse" 2] 0 := ⟨_, List.mem_singleton_self _, _, rfl⟩
  have first := met 0 0 0 _ _ _ _ reached rfl rfl rfl rfl rfl
  have second := met 0 0 1 _ _ _ _ reached rfl rfl rfl rfl rfl
  exact ⟨first, second, distinct⟩

end Document

end Tablature
