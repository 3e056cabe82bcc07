import Tablature.Proofs.Score

namespace Tablature.Document

variable {d : Document} {id : String} {s : Nat} {unit : Section}

/-- An id names the first section that carries it. -/
theorem section?_eq_some_iff :
    d.section? id = some (s, unit) ↔ d.sections[s]? = some unit ∧ unit.id = id ∧
      ∀ j < s, ∀ other, d.sections[j]? = some other → other.id ≠ id := by
  rw [section?_eq]
  constructor
  · intro found
    obtain ⟨place, first, atPlace⟩ := Option.bind_eq_some_iff.mp found
    obtain ⟨found, here, same⟩ := Option.map_eq_some_iff.mp atPlace
    cases same
    obtain ⟨bound, carries, before⟩ := List.findIdx?_eq_some_iff_getElem.mp first
    obtain ⟨_, same⟩ := List.getElem?_eq_some_iff.mp here
    refine ⟨here, ?_, fun j earlier other atOther carried => ?_⟩
    · rw [← same]
      exact beq_iff_eq.mp carries
    · obtain ⟨_, isOther⟩ := List.getElem?_eq_some_iff.mp atOther
      apply before j earlier
      rw [isOther]
      exact beq_iff_eq.mpr carried
  · rintro ⟨here, carries, before⟩
    obtain ⟨bound, same⟩ := List.getElem?_eq_some_iff.mp here
    have first : (d.sections.findIdx? fun other => other.id == id) = some s := by
      refine List.findIdx?_eq_some_iff_getElem.mpr ⟨bound, ?_, fun j earlier carried => ?_⟩
      · rw [same]
        exact beq_iff_eq.mpr carries
      · have within : j < d.sections.length := by omega
        exact before j earlier _ (List.getElem?_eq_getElem within) (beq_iff_eq.mp carried)
    rw [first, Option.bind_some, here, Option.map_some]

theorem section?_eq_none_iff : d.section? id = none ↔ ∀ unit ∈ d.sections, unit.id ≠ id := by
  unfold section?
  rw [Option.map_eq_none_iff, List.find?_eq_none]
  constructor
  · intro none unit member carries
    obtain ⟨s, here⟩ := List.mem_iff_getElem?.mp member
    exact none (unit, s) (List.mk_mem_zipIdx_iff_getElem?.mpr here) (beq_iff_eq.mpr carries)
  · intro none place member carries
    have here := List.mk_mem_zipIdx_iff_getElem?.mp member
    exact none place.1 (List.mem_of_getElem? here) (beq_iff_eq.mp carries)

/-- The id of a section names a section, if not always that one. -/
theorem section?_own (member : unit ∈ d.sections) : ∃ s first, d.section? unit.id = some (s, first) := by
  cases found : d.section? unit.id with
  | none => exact absurd rfl (section?_eq_none_iff.mp found unit member)
  | some place => exact ⟨place.1, place.2, rfl⟩

/-- Where no two sections share an id, the id of a section names that one. -/
theorem section?_distinct (distinct : (d.sections.map Section.id).Nodup) (here : d.sections[s]? = some unit) :
    d.section? unit.id = some (s, unit) := by
  refine section?_eq_some_iff.mpr ⟨here, rfl, fun j earlier other atOther carried => ?_⟩
  have place : (d.sections.map Section.id)[s]? = some unit.id := by
    rw [List.getElem?_map, here, Option.map_some]
  have otherPlace : (d.sections.map Section.id)[j]? = some unit.id := by
    rw [List.getElem?_map, atOther, Option.map_some, carried]
  have bound : s < (d.sections.map Section.id).length := (List.getElem?_eq_some_iff.mp place).1
  have same : s = j := (List.getElem?_inj bound distinct).mp (place.trans otherPlace.symm)
  omega

/-- An entry that plays once plays the section that it names. -/
theorem entry_once {entry : ProgressionEntry} (found : d.section? entry.sectionId = some (s, unit))
    (once : passes entry.repetitions = 1) (options : Options) :
    entry.part d options = unit.pass options.cap (d.globalTempo options) s := by
  unfold ProgressionEntry.part
  rw [found]
  simp only [once, Part.times_one]

theorem entry_cues_once {entry : ProgressionEntry} (found : d.section? entry.sectionId = some (s, unit))
    (once : passes entry.repetitions = 1) (global : Float) : entry.cues d global = unit.cues global s := by
  unfold ProgressionEntry.cues
  rw [found]
  simp only [eachPass, once, List.replicate_one, List.flatten_singleton]

end Tablature.Document
