import Tablature.Proofs.Reload

namespace Tablature

open Double Json

/-- A tempo that is, up to its sign, the double that a number of at most 15 digits is rounded to, with at most 21 of
them after the point. -/
def IsDecimal (bpm : Float) : Prop :=
  ∃ negative m e, ∃ digits places : Nat, Binary.ofFloat bpm = .finite negative m e ∧ 0 < m ∧ 0 < digits ∧
    digits < 10 ^ 15 ∧ places ≤ 21 ∧ RoundsTo m e (digits / 10 ^ places)

section Decimals

variable {bpm : Float} {negative : Bool} {m : Nat} {e : Int}

theorem isDecimal_of_holds (bits : Binary.ofFloat bpm = .finite negative m e) (positive : 0 < m) (digits places : Nat)
    (present : 0 < digits) (few : digits < 10 ^ 15) (near : places ≤ 21)
    (rounds : (Rounding.of m e).holds digits (10 ^ places) = true) : IsDecimal bpm := by
  have rounded := (Rounding.holds_iff positive digits (Nat.pow_pos (by decide))).mp rounds
  rw [Nat.cast_pow, Nat.cast_ofNat] at rounded
  exact ⟨negative, m, e, digits, places, bits, positive, present, few, near, rounded⟩

theorem IsDecimal.short (decimal : IsDecimal bpm) : IsShort bpm := by
  obtain ⟨negative, m, e, digits, places, bits, positive, present, few, near, rounds⟩ := decimal
  exact ⟨negative, m, e, bits, positive, shortest_short .even positive present few near rounds⟩

end Decimals

/-- A tempo that is read again from what it is stored as, if it is finite. -/
def IsLasting (bpm : Float) : Prop :=
  IsWhole bpm ∨ IsExact bpm

def AllLasting (tempos : List (Option Float)) : Prop :=
  ∀ bpm, some bpm ∈ tempos → IsLasting bpm

section Rereading

variable {bpm : Float}

theorem IsLasting.rereads (lasting : IsLasting bpm) : rereadTempo (some bpm) = reloadedTempo (some bpm) := by
  by_cases whole : IsWhole bpm
  · exact whole.rereads
  · obtain ⟨_, _, _, _, same⟩ := parts_fraction whole
    have exact' : reread bpm = some bpm := lasting.resolve_left whole
    rw [rereadTempo_fraction whole, exact']
    exact stored_finite same

open Float.Model.UnpackedFloat in
/-- Other than zero, no number is equal to another. -/
theorem eq_of_beq_fraction {x : Float} (fraction : ¬IsWhole bpm) (same : (x == bpm) = true) : x = bpm := by
  obtain ⟨_, _, _, _, isFinite⟩ := parts_fraction fraction
  rw [beq_parts, beq_iff_ne_notANumber_and_eq, isFinite] at same
  obtain ⟨_, _, same | ⟨_, zero⟩ | ⟨_, zero⟩⟩ := same
  · exact parts_injective (same.trans isFinite.symm)
  · cases zero
  · cases zero

/-- A tempo comes back just if it is finite, set, and read from its digits as what it is. -/
theorem rereadTempo_beq_iff : (rereadTempo (some bpm) == some bpm) = true ↔
    bpm.isFinite = true ∧ (bpm == unsetTempo) = false ∧ IsLasting bpm := by
  constructor
  · intro back
    by_cases whole : IsWhole bpm
    · rw [whole.rereads, reloadedTempo] at back
      split at back
      · next kept =>
        obtain ⟨finite, set⟩ := Bool.and_eq_true_iff.mp kept
        exact ⟨finite, Bool.not_eq_true' _ |>.mp set, Or.inl whole⟩
      · cases back
    · obtain ⟨x, read, _⟩ := spells_reread whole
      rw [rereadTempo_fraction whole, read, Option.bind_some, storedTempo] at back
      split at back
      · cases back
      · next set =>
        obtain rfl : x = bpm := eq_of_beq_fraction whole back
        obtain ⟨_, _, _, _, same⟩ := parts_fraction whole
        exact ⟨isFinite_parts same, Bool.eq_false_iff.mpr set, Or.inr read⟩
  · rintro ⟨finite, set, lasting⟩
    have back := reloadedTempo_beq (some bpm)
    rwa [keptTempo, Option.filter_some, finite, bne, set, ← lasting.rereads] at back

end Rereading

section Again

theorem reloadedTempo_cases (bpm : Option Float) : reloadedTempo bpm = none ∨ reloadedTempo bpm = some 0.0 ∨
    ∃ x, bpm = some x ∧ reloadedTempo bpm = some x := by
  cases bpm with
  | none => exact Or.inl rfl
  | some x =>
    rw [reloadedTempo]
    split
    · split
      · exact Or.inr (Or.inl rfl)
      · exact Or.inr (Or.inr ⟨x, rfl, rfl⟩)
    · exact Or.inl rfl

/-- What is read again is stored as it is from then on. -/
theorem rereadTempo_again {bpm : Option Float} (lasting : ∀ x, bpm = some x → IsLasting x) :
    rereadTempo (rereadTempo bpm) = rereadTempo bpm := by
  cases bpm with
  | none => rw [rereadTempo_none, rereadTempo_none]
  | some x =>
    have first := (lasting x rfl).rereads
    rcases reloadedTempo_cases (some x) with unset | zero | ⟨y, same, kept⟩
    · rw [first, unset, rereadTempo_none]
    · rw [first, zero, (isWhole_zero rfl).rereads]
      rfl
    · cases same
      rw [first, kept, first, kept]

end Again

/-- The document after it was stored and read again so many times. -/
def Document.cycled (d : Document) : Nat → Except LoadError Document
  | 0 => .ok d
  | n + 1 => d.cycled n >>= fun d => load d.toJson

theorem Document.cycled_fixed {d reloaded : Document} (first : load d.toJson = .ok reloaded)
    (again : load reloaded.toJson = .ok reloaded) (n : Nat) : d.cycled (n + 1) = .ok reloaded := by
  induction n with
  | zero => rw [cycled, cycled, ok_bind, first]
  | succ n ih => rw [cycled, ih, ok_bind, again]

/-- Every document that is stored is read again, in either layout, with each tempo as its text is reread. It is
the same document just if its tempos are finite, are set, and are whole or exact; decimals of a few digits are.
From then on it stays the same, however often it is stored and read. -/
theorem Document.reload_exactly (d : Document) :
    ∃ reloaded, load d.toJson = .ok reloaded ∧ load d.json.compact = .ok reloaded ∧
      reloaded = d.mapTempos rereadTempo ∧
      ((reloaded == d) = true ↔
        ∀ bpm, some bpm ∈ d.tempos → bpm.isFinite = true ∧ (bpm == unsetTempo) = false ∧ IsLasting bpm) ∧
      ((reloaded == d) = true → some (-0.0) ∉ d.tempos → reloaded = d) ∧
      (∀ bpm, some bpm ∈ d.tempos → (IsDecimal bpm → IsShort bpm) ∧ (IsShort bpm → IsLasting bpm)) ∧
      (AllLasting d.tempos → ∀ n, d.cycled (n + 1) = .ok reloaded) := by
  have indented := load_stored d Json.Layout.indented_spaced
  have compact := load_stored d Json.Layout.compact_spaced
  have same : (d.mapTempos rereadTempo == d) = true ↔
      ∀ bpm, some bpm ∈ d.tempos → bpm.isFinite = true ∧ (bpm == unsetTempo) = false ∧ IsLasting bpm := by
    have agree := d.mapTempos_beq_iff (f := rereadTempo) (g := fun bpm => bpm)
    rw [d.mapTempos_id] at agree
    refine agree.trans ⟨fun back bpm member => rereadTempo_beq_iff.mp (back _ member), fun kept bpm member => ?_⟩
    cases bpm with
    | none =>
      rw [rereadTempo_none]
      rfl
    | some bpm => exact rereadTempo_beq_iff.mpr (kept bpm member)
  refine ⟨d.mapTempos rereadTempo, indented, compact, rfl, same, fun back signed => ?_,
    fun _ _ => ⟨IsDecimal.short, fun short => Or.inr short.exact⟩, fun lasting => ?_⟩
  · refine mapTempos_fixed fun bpm member => ?_
    cases bpm with
    | none => exact rereadTempo_none
    | some bpm =>
      obtain ⟨finite, set, lasting⟩ := same.mp back bpm member
      rw [lasting.rereads]
      exact reloadedTempo_same finite set fun minus => signed (minus ▸ member)
  · have again : (d.mapTempos rereadTempo).mapTempos rereadTempo = d.mapTempos rereadTempo := by
      refine mapTempos_fixed fun bpm member => ?_
      rw [d.tempos_mapTempos rereadTempo] at member
      obtain ⟨stored, inside, rfl⟩ := List.mem_map.mp member
      exact rereadTempo_again fun x isTempo => lasting x (isTempo ▸ inside)
    have second := load_stored (d.mapTempos rereadTempo) Json.Layout.indented_spaced
    rw [again] at second
    exact cycled_fixed indented second

/-- A document with a fractional tempo at each place that has one. -/
def Document.fractional : Document :=
  { bpm := some 97.5
    sections := [
      { id := "s"
        subsections := [
          { id := "t", bpm := some 119.99, content := .tab [] },
          { id := "u", bpm := some 0.1, content := .chords [{ id := "q", bpm := some 1e-7 }] }] }] }

theorem Document.fractional_lasting : AllLasting fractional.tempos := by
  have tempos : fractional.tempos = [some 97.5, some 119.99, some 0.1, some 1e-7] := rfl
  have first : Binary.ofFloat 97.5 = .finite false 6860952557322240 (-46) := rfl
  have second : Binary.ofFloat 119.99 = .finite false 8443545613877903 (-46) := rfl
  have third : Binary.ofFloat 0.1 = .finite false 7205759403792794 (-56) := rfl
  have fourth : Binary.ofFloat 1e-7 = .finite false 7555786372591432 (-76) := rfl
  intro bpm member
  rw [tempos] at member
  simp only [List.mem_cons, Option.some.injEq, List.not_mem_nil, or_false] at member
  refine Or.inr (IsDecimal.short ?_).exact
  rcases member with rfl | rfl | rfl | rfl
  · exact isDecimal_of_holds first (by decide) 975 1 (by decide) (by decide) (by decide) (by decide +kernel)
  · exact isDecimal_of_holds second (by decide) 11999 2 (by decide) (by decide) (by decide) (by decide +kernel)
  · exact isDecimal_of_holds third (by decide) 1 1 (by decide) (by decide) (by decide) (by decide +kernel)
  · exact isDecimal_of_holds fourth (by decide) 1 7 (by decide) (by decide) (by decide) (by decide +kernel)

theorem Document.fractional_cycled :
    AllLasting fractional.tempos ∧ ∀ n, fractional.cycled (n + 1) = .ok fractional := by
  obtain ⟨reloaded, _, _, _, kept, unsigned, _, cycled⟩ := reload_exactly fractional
  have tempos : fractional.tempos = [some 97.5, some 119.99, some 0.1, some 1e-7] := rfl
  have back : (reloaded == fractional) = true := kept.mpr fun bpm member => by
    have lasting := fractional_lasting bpm member
    rw [tempos] at member
    simp only [List.mem_cons, Option.some.injEq, List.not_mem_nil, or_false] at member
    rcases member with rfl | rfl | rfl | rfl <;> exact ⟨rfl, rfl, lasting⟩
  have same : reloaded = fractional := by
    refine unsigned back fun member => ?_
    rw [tempos] at member
    simp only [List.mem_cons, Option.some.injEq, List.not_mem_nil, or_false] at member
    rcases member with same | same | same | same <;> cases congrArg Binary.ofFloat same
  rw [same] at cycled
  exact ⟨fractional_lasting, cycled fractional_lasting⟩

/-- A document with a tempo just below 120, whose sixteen digits are more than a double holds. -/
def Document.drifting : Document :=
  { title := "Drifting", bpm := some 119.99999999999999 }

/-- A tempo that is neither whole nor exact comes back as another. -/
theorem Document.drifting_drifts : ∃ reloaded, load drifting.toJson = .ok reloaded ∧ reloaded.bpm = some 120.0 ∧
    drifting.bpm ≠ some 120.0 := by
  have read : (load drifting.toJson).toOption.map bpm = some (some 120.0) := by decide +kernel
  cases loaded : load drifting.toJson with
  | error e =>
    rw [loaded] at read
    cases read
  | ok reloaded =>
    rw [loaded] at read
    exact ⟨reloaded, rfl, Option.some.inj read, by decide +kernel⟩

end Tablature
