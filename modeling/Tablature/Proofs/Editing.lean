import Tablature.Proofs.ScopedPreview
import Tablature.Session

namespace Tablature

/-- What of a document an edit is about: all of it, its tempo, its progression, the place behind its sections, the
place behind the subsections of one, or one subsection. -/
inductive Site where
  | everything
  | tempo
  | progression
  | newSection
  | newSubsection (s : Nat)
  | subsection (s t : Nat)

def Edit.site : Edit → Site
  | load _ | reload => .everything
  | documentTempo _ => .tempo
  | addProgression _ | clearProgression => .progression
  | addSection _ _ => .newSection
  | addTab s _ | addChords s _ => .newSubsection s
  | addColumn s t _ | addSequence s t _ | subsectionTempo s t _ | subsectionRepetitions s t _ => .subsection s t

/-- The section with this index may be another one after an edit at the site. -/
def Site.Touches (s : Nat) : Site → Prop
  | everything => True
  | tempo | progression | newSection => False
  | newSubsection s' | subsection s' _ => s' = s

/-- The second content begins with the first, and is of the same kind. -/
inductive Content.Grows : Content → Content → Prop
  | tab {columns others : List Column} (front : columns <+: others) : Grows (.tab columns) (.tab others)
  | chords {sequences others : List ChordSequence} (front : sequences <+: others) :
      Grows (.chords sequences) (.chords others)

structure Subsection.Grows (b other : Subsection) : Prop where
  id : other.id = b.id
  content : b.content.Grows other.content

/-- Every subsection of the first section is in the second at its place, changed at most in what it says of itself
or grown. -/
structure Section.Grows (unit other : Section) : Prop where
  id : other.id = unit.id
  title : other.title = unit.title
  subsections : ∀ (t : Nat) (b : Subsection), unit.subsections[t]? = some b →
    ∃ c, other.subsections[t]? = some c ∧ b.Grows c

structure Document.Grows (d e : Document) : Prop where
  title : e.title = d.title
  sections : ∀ (s : Nat) (unit : Section), d.sections[s]? = some unit →
    ∃ other, e.sections[s]? = some other ∧ unit.Grows other

/-- What an edit at a site leaves: the document with another tempo, another progression, one more section or
subsection, or one subsection changed, which keeps its id and all that it consists of. -/
inductive Document.EditedAt (d : Document) : Site → Document → Prop
  | everything (other : Document) : EditedAt d .everything other
  | tempo (bpm : Option Float) : EditedAt d .tempo { d with bpm }
  | progression (entries : List ProgressionEntry) : EditedAt d .progression { d with progression := entries }
  | newSection (added : Section) : EditedAt d .newSection { d with sections := d.sections ++ [added] }
  | newSubsection {s : Nat} {unit : Section} (atUnit : d.sections[s]? = some unit) (added : Subsection) :
      EditedAt d (.newSubsection s) { d with sections := d.sections.set s (unit.add added) }
  | subsection {s t : Nat} {unit : Section} {b changed : Subsection} (atUnit : d.sections[s]? = some unit)
      (atB : unit.subsections[t]? = some b) (grows : b.Grows changed) :
      EditedAt d (.subsection s t)
        { d with sections := d.sections.set s { unit with subsections := unit.subsections.set t changed } }

namespace Content.Grows

theorem of_tab {columns : List Column} {content : Content} (grows : (Content.tab columns).Grows content) :
    ∃ others, content = .tab others ∧ columns <+: others := by
  cases grows with
  | tab front => exact ⟨_, rfl, front⟩

theorem of_chords {sequences : List ChordSequence} {content : Content}
    (grows : (Content.chords sequences).Grows content) :
    ∃ others, content = .chords others ∧ sequences <+: others := by
  cases grows with
  | chords front => exact ⟨_, rfl, front⟩

theorem refl (content : Content) : content.Grows content := by
  cases content with
  | tab columns => exact .tab List.prefix_rfl
  | chords sequences => exact .chords List.prefix_rfl

theorem trans {first second third : Content} (early : first.Grows second) (late : second.Grows third) :
    first.Grows third := by
  cases early with
  | tab front =>
    cases late with
    | tab further => exact .tab (front.trans further)
  | chords front =>
    cases late with
    | chords further => exact .chords (front.trans further)

end Content.Grows

theorem Subsection.Grows.refl (b : Subsection) : b.Grows b :=
  ⟨rfl, .refl b.content⟩

theorem Subsection.Grows.trans {b c e : Subsection} (early : b.Grows c) (late : c.Grows e) : b.Grows e :=
  ⟨late.id.trans early.id, early.content.trans late.content⟩

theorem Section.Grows.refl (unit : Section) : unit.Grows unit :=
  ⟨rfl, rfl, fun _ b atB => ⟨b, atB, .refl b⟩⟩

theorem Section.Grows.trans {unit other third : Section} (early : unit.Grows other) (late : other.Grows third) :
    unit.Grows third := by
  refine ⟨late.id.trans early.id, late.title.trans early.title, fun t b atB => ?_⟩
  obtain ⟨c, atC, grown⟩ := early.subsections t b atB
  obtain ⟨e, atE, further⟩ := late.subsections t c atC
  exact ⟨e, atE, grown.trans further⟩

theorem Section.add_grows (added : Subsection) (unit : Section) : unit.Grows (unit.add added) := by
  refine ⟨rfl, rfl, fun t b atB => ⟨b, ?_, .refl b⟩⟩
  exact (List.getElem?_append_left (List.getElem?_eq_some_iff.mp atB).1).trans atB

theorem Section.set_grows {unit : Section} {t : Nat} {b changed : Subsection} (atB : unit.subsections[t]? = some b)
    (grows : b.Grows changed) : unit.Grows { unit with subsections := unit.subsections.set t changed } := by
  refine ⟨rfl, rfl, fun i other atOther => ?_⟩
  by_cases same : t = i
  · subst same
    cases atB.symm.trans atOther
    exact ⟨changed, List.getElem?_set_self (List.getElem?_eq_some_iff.mp atB).1, grows⟩
  · exact ⟨other, (List.getElem?_set_ne same).trans atOther, .refl other⟩

theorem Subsection.addColumn_grows {b changed : Subsection} {column : Column}
    (added : b.addColumn column = some changed) : b.Grows changed := by
  unfold addColumn at added
  split at added
  · next columns content =>
    cases added
    refine ⟨rfl, ?_⟩
    rw [content]
    exact .tab (List.prefix_append _ _)
  · cases added

theorem Subsection.addSequence_grows {b changed : Subsection} {q : ChordSequence}
    (added : b.addSequence q = some changed) : b.Grows changed := by
  unfold addSequence at added
  split at added
  · next sequences content =>
    cases added
    refine ⟨rfl, ?_⟩
    rw [content]
    exact .chords (List.prefix_append _ _)
  · cases added

namespace Document

variable {d e f : Document} {edit : Edit} {site : Site} {s t : Nat}

theorem editSection_ok {change : Section → Option Section} (edited : d.editSection s change = .ok e) :
    ∃ unit changed, d.sections[s]? = some unit ∧ change unit = some changed ∧
      e = { d with sections := d.sections.set s changed } := by
  unfold editSection at edited
  split at edited
  · next changed found =>
    obtain ⟨unit, atUnit, made⟩ := Option.bind_eq_some_iff.mp found
    cases edited
    exact ⟨unit, changed, atUnit, made, rfl⟩
  · cases edited

theorem editSection_adds {added : Subsection}
    (edited : (d.editSection s fun unit => some (unit.add added)) = .ok e) : d.EditedAt (.newSubsection s) e := by
  obtain ⟨unit, changed, atUnit, made, rfl⟩ := editSection_ok edited
  cases made
  exact .newSubsection atUnit added

/-- A change of one subsection that keeps its id and only adds to it stays at that subsection. -/
theorem editSubsection_changes {change : Subsection → Option Subsection}
    (grows : ∀ b changed, change b = some changed → b.Grows changed)
    (edited : d.editSubsection s t change = .ok e) : d.EditedAt (.subsection s t) e := by
  obtain ⟨unit, _, atUnit, made, rfl⟩ := editSection_ok edited
  obtain ⟨changed, found, rfl⟩ := Option.map_eq_some_iff.mp made
  obtain ⟨b, atB, made⟩ := Option.bind_eq_some_iff.mp found
  exact .subsection atUnit atB (grows b changed made)

/-- An edit changes nothing but what it is about. -/
theorem edit_editedAt (edited : d.edit edit = .ok e) : d.EditedAt edit.site e := by
  cases edit with
  | load | reload => exact .everything e
  | addSection id title =>
    cases edited
    exact .newSection _
  | addTab | addChords => exact editSection_adds edited
  | addColumn => exact editSubsection_changes (fun _ _ => Subsection.addColumn_grows) edited
  | addSequence => exact editSubsection_changes (fun _ _ => Subsection.addSequence_grows) edited
  | documentTempo bpm =>
    cases edited
    exact .tempo _
  | subsectionTempo | subsectionRepetitions =>
    refine editSubsection_changes (fun b changed made => ?_) edited
    cases made
    exact ⟨rfl, .refl _⟩
  | addProgression | clearProgression =>
    cases edited
    exact .progression _

theorem EditedAt.tempo_kept (edited : d.EditedAt site e) (elsewhere : site ≠ .everything) (other : site ≠ .tempo) :
    e.bpm = d.bpm := by
  cases edited with
  | everything => exact absurd rfl elsewhere
  | tempo => exact absurd rfl other
  | _ => rfl

theorem EditedAt.progression_kept (edited : d.EditedAt site e) (elsewhere : site ≠ .everything)
    (other : site ≠ .progression) : e.progression = d.progression := by
  cases edited with
  | everything => exact absurd rfl elsewhere
  | progression => exact absurd rfl other
  | _ => rfl

/-- A section that the edit does not touch stays where and as it is. -/
theorem EditedAt.section_kept (edited : d.EditedAt site e) (elsewhere : ¬site.Touches s) {unit : Section}
    (atUnit : d.sections[s]? = some unit) : e.sections[s]? = some unit := by
  cases edited with
  | everything => exact absurd True.intro elsewhere
  | tempo | progression => exact atUnit
  | newSection added =>
    rw [List.getElem?_append_left (List.getElem?_eq_some_iff.mp atUnit).1]
    exact atUnit
  | newSubsection _ _ => exact (List.getElem?_set_ne elsewhere).trans atUnit
  | subsection _ _ _ => exact (List.getElem?_set_ne elsewhere).trans atUnit

theorem Grows.refl (d : Document) : d.Grows d :=
  ⟨rfl, fun _ unit atUnit => ⟨unit, atUnit, .refl unit⟩⟩

theorem Grows.trans (early : d.Grows e) (late : e.Grows f) : d.Grows f := by
  refine ⟨late.title.trans early.title, fun s unit atUnit => ?_⟩
  obtain ⟨other, atOther, grown⟩ := early.sections s unit atUnit
  obtain ⟨third, atThird, further⟩ := late.sections s other atOther
  exact ⟨third, atThird, grown.trans further⟩

theorem set_grows {unit changed : Section} (atUnit : d.sections[s]? = some unit) (grows : unit.Grows changed) :
    d.Grows { d with sections := d.sections.set s changed } := by
  refine ⟨rfl, fun i other atOther => ?_⟩
  by_cases same : s = i
  · subst same
    cases atUnit.symm.trans atOther
    exact ⟨changed, List.getElem?_set_self (List.getElem?_eq_some_iff.mp atUnit).1, grows⟩
  · exact ⟨other, (List.getElem?_set_ne same).trans atOther, .refl other⟩

/-- An edit that does not put another document in the place of this one leaves every unit at its place. -/
theorem EditedAt.grows (edited : d.EditedAt site e) (elsewhere : site ≠ .everything) : d.Grows e := by
  cases edited with
  | everything => exact absurd rfl elsewhere
  | tempo | progression => exact ⟨rfl, fun _ unit atUnit => ⟨unit, atUnit, .refl unit⟩⟩
  | newSection added =>
    refine ⟨rfl, fun s unit atUnit => ⟨unit, ?_, .refl unit⟩⟩
    exact (List.getElem?_append_left (List.getElem?_eq_some_iff.mp atUnit).1).trans atUnit
  | newSubsection atUnit added => exact set_grows atUnit (Section.add_grows added _)
  | subsection atUnit atB grows => exact set_grows atUnit (Section.set_grows atB grows)

/-- What a document that grows has at a place is still there, even if more was added around it. -/
theorem Grows.hasPlace (grows : d.Grows e) {l : Location} (has : d.HasPlace l) : e.HasPlace l := by
  cases has with
  | column atUnit atB content inside =>
    obtain ⟨other, atOther, grown⟩ := grows.sections _ _ atUnit
    obtain ⟨c, atC, further⟩ := grown.subsections _ _ atB
    obtain ⟨columns, isTab, front⟩ := (content ▸ further.content).of_tab
    exact .column atOther atC isTab (Nat.lt_of_lt_of_le inside front.length_le)
  | strum atUnit atB content atQ inside =>
    obtain ⟨other, atOther, grown⟩ := grows.sections _ _ atUnit
    obtain ⟨c, atC, further⟩ := grown.subsections _ _ atB
    obtain ⟨sequences, isChords, rest, rfl⟩ := (content ▸ further.content).of_chords
    refine .strum atOther atC isChords ?_ inside
    exact (List.getElem?_append_left (List.getElem?_eq_some_iff.mp atQ).1).trans atQ

/-- A preview of what is in a section depends on that section and on the tempo of the document. -/
theorem preview_congr {address : Address} (tempo : e.bpm = d.bpm)
    (same : e.sections[address.sectionIndex]? = d.sections[address.sectionIndex]?) (options : Options) :
    e.preview address options = d.preview address options := by
  have global : e.globalTempo options = d.globalTempo options := by rw [globalTempo, tempo, globalTempo]
  have excerpt : e.excerpt? options address = d.excerpt? options address := by
    simp only [excerpt?, program?, same, global]
  rw [preview_excerpt, preview_excerpt, global, excerpt]

end Document

namespace Session

variable {session : Session} {edits : List Edit}

/-- The session after a list of edits. -/
def run (session : Session) (edits : List Edit) : Session :=
  edits.foldl (fun session edit => (session.edit edit).1) session

/-- An edit that fails leaves the session as it was, and one that is done changes the document where it is about it,
and nothing else. -/
theorem edit_step (session : Session) (edit : Edit) :
    (∃ error, session.edit edit = (session, .error error)) ∨
      ∃ d, session.edit edit = ({ session with document := d }, .ok d) ∧ session.document.EditedAt edit.site d := by
  unfold Session.edit
  cases outcome : session.document.edit edit with
  | error error => exact Or.inl ⟨error, rfl⟩
  | ok d => exact Or.inr ⟨d, rfl, Document.edit_editedAt outcome⟩

/-- What every edit of a list does to a session, if it can be repeated, the whole list does. -/
theorem run_related {R : Session → Session → Prop} (refl : ∀ session, R session session)
    (trans : ∀ {first second third}, R first second → R second third → R first third)
    (step : ∀ edit ∈ edits, ∀ session : Session, R session (session.edit edit).1) :
    R session (session.run edits) := by
  induction edits generalizing session with
  | nil => exact refl session
  | cons edit edits ih =>
    obtain ⟨first, others⟩ := List.forall_mem_cons.mp step
    exact trans (first session) (ih others)

/-- Edits never change the options of a session, nor what was played last. -/
theorem run_settings (session : Session) (edits : List Edit) :
    (session.run edits).options = session.options ∧ (session.run edits).last = session.last := by
  refine run_related (R := fun before after => after.options = before.options ∧ after.last = before.last)
    (fun _ => ⟨rfl, rfl⟩) (fun early late => ⟨late.1.trans early.1, late.2.trans early.2⟩) fun edit _ session => ?_
  rcases session.edit_step edit with ⟨error, failed⟩ | ⟨d, done, _⟩
  · rw [failed]
    exact ⟨rfl, rfl⟩
  · rw [done]
    exact ⟨rfl, rfl⟩

/-- A relation between documents that no edit of a list breaks where it is about holds for the whole list. -/
theorem run_documents {R : Document → Document → Prop} (refl : ∀ d, R d d)
    (trans : ∀ {d e f}, R d e → R e f → R d f)
    (step : ∀ edit ∈ edits, ∀ d e, d.EditedAt edit.site e → R d e) :
    R session.document (session.run edits).document := by
  refine run_related (R := fun before after => R before.document after.document) (fun _ => refl _) trans
    fun edit member session => ?_
  rcases session.edit_step edit with ⟨error, failed⟩ | ⟨d, done, edited⟩
  · rw [failed]
    exact refl session.document
  · rw [done]
    exact step edit member _ _ edited

/-- As long as no other document is loaded, everything keeps its place, and so do the places of what was played. -/
theorem run_grows (same : ∀ edit ∈ edits, edit.site ≠ .everything) :
    session.document.Grows (session.run edits).document :=
  run_documents .refl .trans fun edit member _ _ edited => edited.grows (same edit member)

theorem run_hasPlace (same : ∀ edit ∈ edits, edit.site ≠ .everything)
    (placed : ∀ m ∈ session.last.moments, session.document.HasPlace m.location) :
    ∀ m ∈ (session.run edits).last.moments, (session.run edits).document.HasPlace m.location := by
  rw [(session.run_settings edits).2]
  exact fun m member => (run_grows same).hasPlace (placed m member)

theorem run_tempo (same : ∀ edit ∈ edits, edit.site ≠ .everything) (other : ∀ edit ∈ edits, edit.site ≠ .tempo) :
    (session.run edits).document.bpm = session.document.bpm :=
  run_documents (R := fun d e => e.bpm = d.bpm) (fun _ => rfl) (fun early late => late.trans early)
    fun edit member _ _ edited => edited.tempo_kept (same edit member) (other edit member)

theorem run_progression (same : ∀ edit ∈ edits, edit.site ≠ .everything)
    (other : ∀ edit ∈ edits, edit.site ≠ .progression) :
    (session.run edits).document.progression = session.document.progression :=
  run_documents (R := fun d e => e.progression = d.progression) (fun _ => rfl) (fun early late => late.trans early)
    fun edit member _ _ edited => edited.progression_kept (same edit member) (other edit member)

theorem run_section {s : Nat} (elsewhere : ∀ edit ∈ edits, ¬edit.site.Touches s) {unit : Section}
    (atUnit : session.document.sections[s]? = some unit) :
    (session.run edits).document.sections[s]? = some unit :=
  run_documents (R := fun d e => d.sections[s]? = some unit → e.sections[s]? = some unit) (fun _ here => here)
    (fun early late here => late (early here))
    (fun edit member _ _ edited => edited.section_kept (elsewhere edit member)) atUnit

/-- Edits elsewhere are not heard: as long as none touches a section or the tempo of the document, the previews of
what is in that section stay as they are. -/
theorem run_preview {address : Address} (elsewhere : ∀ edit ∈ edits, ¬edit.site.Touches address.sectionIndex)
    (steady : ∀ edit ∈ edits, edit.site ≠ .tempo)
    (inside : address.sectionIndex < session.document.sections.length) :
    ((session.run edits).preview address).last = (session.preview address).last := by
  have same : ∀ edit ∈ edits, edit.site ≠ .everything := by
    intro edit member all
    refine elsewhere edit member ?_
    rw [all]
    exact True.intro
  have here := List.getElem?_eq_getElem inside
  have kept := (run_section elsewhere here).trans here.symm
  have played := Document.preview_congr (run_tempo same steady) kept session.options
  obtain ⟨options, _⟩ := session.run_settings edits
  change (session.run edits).document.preview address (session.run edits).options = _
  rw [options]
  exact played

end Session

end Tablature
