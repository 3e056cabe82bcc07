import Tablature.Proofs.FormReading

namespace Tablature

/-- A tempo, taken as not set if it stands for that, is not a number or is infinite. -/
def keptTempo (bpm : Option Float) : Option Float :=
  bpm.filter fun x => x.isFinite && x != unsetTempo

theorem beq_self {x : Float} (finite : x.isFinite = true) : (x == x) = true := by
  rw [Float.beq_self_iff]
  rintro rfl
  cases finite

/-- Storing a tempo that is kept and reading it again changes at most the sign of a zero. -/
theorem reloadedTempo_beq (bpm : Option Float) : (reloadedTempo bpm == keptTempo bpm) = true := by
  cases bpm with
  | none => rfl
  | some x =>
    rw [reloadedTempo, keptTempo, Option.filter_some]
    cases kept : x.isFinite && x != unsetTempo with
    | false => rfl
    | true =>
      have finite := (Bool.and_eq_true_iff.mp kept).1
      cases zero : x == 0.0 with
      | false => exact beq_self finite
      | true =>
        have back : ((0.0 : Float) == x) = true := PartialEquivBEq.symm zero
        exact back

open Double Float.Model.UnpackedFloat in
theorem reloadedTempo_same {x : Float} (finite : x.isFinite = true) (set : (x == unsetTempo) = false)
    (signed : x ≠ -0.0) : reloadedTempo (some x) = some x := by
  have same : (if x == 0.0 then 0.0 else x) = x := by
    split
    · next zero =>
      rw [beq_parts, beq_iff_ne_notANumber_and_eq] at zero
      obtain ⟨_, _, same | ⟨_, minus⟩ | ⟨minus, _⟩⟩ := zero
      · exact (parts_injective same).symm
      · cases minus
      · exact absurd (parts_injective minus) signed
    · rfl
  rw [reloadedTempo, finite, bne, set, same]
  rfl

/-- A document stored in either layout is read again: with every tempo that is set and finite, up to the sign of a
zero, and with all the rest as it was. It plays like the one that was stored. -/
theorem Document.reload_keeps (d : Document) (whole : AllWhole d.tempos) :
    ∃ reloaded, load d.toJson = .ok reloaded ∧ load d.json.compact = .ok reloaded ∧
      reloaded = d.mapTempos reloadedTempo ∧ (reloaded == d.mapTempos keptTempo) = true ∧
      ((∀ bpm ∈ d.tempos, keptTempo bpm = bpm) → (reloaded == d) = true) ∧
      ∀ options, reloaded.play reloaded.effectiveProgression options = d.play d.effectiveProgression options := by
  have indented := load_written whole Json.Layout.indented_spaced
  have compact := load_written whole Json.Layout.compact_spaced
  refine ⟨d.mapTempos reloadedTempo, indented, compact, rfl, ?_, ?_, ?_⟩
  · exact mapTempos_beq fun bpm _ => reloadedTempo_beq bpm
  · intro kept
    have same : (d.mapTempos reloadedTempo == d.mapTempos fun bpm => bpm) = true := mapTempos_beq fun bpm member => by
      have stored := reloadedTempo_beq bpm
      rwa [kept bpm member] at stored
    rwa [d.mapTempos_id] at same
  · intro options
    rw [d.effectiveProgression_mapTempos, play_mapTempos resolveTempo_reloaded]

/-- A document with tempos of every kind, and with characters that JSON escapes. -/
def Document.mixed : Document :=
  { title := "\"a\\b\"\n\x01é"
    bpm := some 120.0
    sections := [
      { id := "s"
        subsections := [
          { id := "t", bpm := some unsetTempo, repetitions := 2
            content := .tab [⟨.start, #v["0", "", "", "", "", "3"], "", "8", "c", true⟩] },
          { id := "u", bpm := some (0.0 / 0.0)
            content := .chords [
              { id := "q", bpm := some (-90.0), pattern := { noteLength := "4", strums := [⟨.held, "v>"⟩] }
                chords := ["Am"] }] }] }]
    progression := [{ sectionId := "s", repetitions := 4294967295 }] }

theorem Document.mixed_whole : AllWhole mixed.tempos := by
  have tempos : mixed.tempos = [some 120.0, some unsetTempo, some (0.0 / 0.0), some (-90.0)] := rfl
  have first : Binary.ofFloat 120.0 = .finite false 8444249301319680 (-46) := rfl
  have second : Binary.ofFloat unsetTempo = .finite true 4503599627370496 (-52) := rfl
  have third : Binary.ofFloat (0.0 / 0.0) = .notANumber := rfl
  have fourth : Binary.ofFloat (-90.0) = .finite true 6333186975989760 (-46) := rfl
  intro bpm member value found
  rw [tempos] at member
  simp only [List.mem_cons, Option.some.injEq, List.not_mem_nil, or_false] at member
  rcases member with rfl | rfl | rfl | rfl
  · rw [first] at found
    cases found
    exact ⟨120, by norm_num, by decide⟩
  · rw [second] at found
    cases found
    exact ⟨-1, by norm_num, by decide⟩
  · rw [third] at found
    cases found
  · rw [fourth] at found
    cases found
    exact ⟨-90, by norm_num, by decide⟩

theorem Document.mixed_reloads :
    AllWhole mixed.tempos ∧ ∃ reloaded, load mixed.toJson = .ok reloaded ∧ load mixed.json.compact = .ok reloaded ∧
      reloaded.tempos = [some 120.0, none, none, some (-90.0)] ∧
      ∀ options, reloaded.play reloaded.effectiveProgression options =
        mixed.play mixed.effectiveProgression options := by
  obtain ⟨reloaded, indented, compact, same, _, _, plays⟩ := Document.reload_keeps mixed mixed_whole
  refine ⟨mixed_whole, reloaded, indented, compact, ?_, plays⟩
  rw [same]
  rfl

end Tablature
