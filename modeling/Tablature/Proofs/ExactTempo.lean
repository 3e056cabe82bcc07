import Tablature.Proofs.Json.Fractions
import Tablature.Proofs.Json.Readers
import Tablature.Proofs.Json.Scaling
import Tablature.Proofs.WholeTempo

namespace Tablature

open Double Json

variable {m : Nat} {e : Int}

/-- A double that a whole number is rounded to is whole, and not much larger. -/
theorem whole_of_rounds {n : Nat} (positive : 0 < m) (rounds : RoundsTo m e n) :
    ∃ k : Nat, (m * 2 ^ e : ℚ) = k ∧ k ≤ 2 * n := by
  have unit : (0 : ℚ) < 2 ^ e := by positivity
  have whole : ∃ k : Nat, (m * 2 ^ e : ℚ) = k := by
    rcases le_or_gt 0 e with above | below
    · refine ⟨m * 2 ^ e.toNat, ?_⟩
      push_cast
      rw [← zpow_natCast, Int.toNat_of_nonneg above]
    · refine ⟨n, ?_⟩
      have scaled : (n : ℚ) / 2 ^ e = (n * 2 ^ e.natAbs : Nat) := by
        rw [Nat.cast_mul, Nat.cast_pow, Nat.cast_ofNat, ← zpow_natCast, Int.ofNat_natAbs_of_nonpos below.le, zpow_neg,
          div_eq_mul_inv]
      have nearest := rounds.nearest
      rw [scaled] at nearest
      have exactly : Nearest (n * 2 ^ e.natAbs) (n * 2 ^ e.natAbs : Nat) := .inside (by linarith) (by linarith)
      rw [nearest.unique exactly, ← scaled, div_mul_cancel₀ _ unit.ne']
  obtain ⟨k, same⟩ := whole
  refine ⟨k, same, ?_⟩
  have least : (1 : ℚ) ≤ m := by exact_mod_cast positive
  have scaled : (2 : ℚ) ^ e ≤ m * 2 ^ e := le_mul_of_one_le_left unit.le least
  have bound : (k : ℚ) ≤ 2 * n := by linarith [rounds.bounds.1]
  exact_mod_cast bound

/-- What the shortest digits of a number are read as. -/
def reread (bpm : Float) : Option Float :=
  match Binary.ofFloat bpm with
  | .finite negative m e =>
    (scale (Float.ofNat (shortest .even m e).digits) (shortest .even m e).exponent).map (signed negative)
  | _ => none

/-- A tempo that its shortest digits are read as. -/
def IsExact (bpm : Float) : Prop :=
  reread bpm = some bpm

/-- A tempo whose shortest digits, and the power of ten that they are scaled by, are doubles. -/
def IsShort (bpm : Float) : Prop :=
  ∃ negative m e, Binary.ofFloat bpm = .finite negative m e ∧ 0 < m ∧ (shortest .even m e).digits < 2 ^ 53 ∧
    (shortest .even m e).exponent.natAbs ≤ 22

section Reading

variable {rest : List Char} (negative : Bool)

/-- A double that is not a small whole number is read as its shortest digits, scaled by their exponent. -/
theorem readNumber_magnitude (positive : 0 < m) (fits : Fits m e) (high : e ≤ 971)
    (fraction : ∀ k : Nat, (m * 2 ^ e : ℚ) = k → 2 ^ 63 ≤ k) (ends : EndsNumber rest) :
    readNumber negative (FloatStyle.data.magnitude m e ++ rest) =
      finishFloat negative (shortest .even m e).digits (shortest .even m e).exponent rest := by
  obtain ⟨rounds, some, few, _⟩ := shortest_rounds .even positive fits.short (e := e)
  have near := shortest_near .even positive fits high
  rw [FloatStyle.magnitude, if_neg positive.ne']
  dsimp only
  have tie : FloatStyle.data.tie = .even := rfl
  rw [tie]
  generalize shortest .even m e = d at *
  have length : (Nat.toDigits 10 d.digits).length ≤ 20 :=
    (Nat.length_toDigits_le_iff (by decide) (by decide)).mpr (few.trans (by decide))
  have present : 0 < (Nat.toDigits 10 d.digits).length := Nat.length_toDigits_pos
  split
  · next plain =>
    have most : (Nat.toDigits 10 d.digits).length + d.exponent ≤ 16 :=
      of_decide_eq_true (Bool.and_eq_true_iff.mp plain).2
    unfold FloatStyle.positionalText
    split
    · next low =>
      rw [readNumber_below negative few low ends]
      congr 1
      omega
    · next high =>
      dsimp only
      split
      · next whole =>
        -- Then the digits are those of a whole number, for which the tempo is too small not to be whole.
        have few : d.digits * 10 ^ d.exponent.toNat < 10 ^ 16 := by
          have power : 0 < 10 ^ d.exponent.toNat := Nat.pow_pos (by decide)
          have scaled := (Nat.mul_lt_mul_right power).mpr (digitCount_lt d.digits)
          rw [← Nat.pow_add] at scaled
          exact scaled.trans_le (Nat.pow_le_pow_right (by decide) (by unfold digitCount; omega))
        have value : d.value = (d.digits * 10 ^ d.exponent.toNat : Nat) := by
          rw [Decimal.value, Nat.cast_mul, Nat.cast_pow, Nat.cast_ofNat, ← zpow_natCast,
            Int.toNat_of_nonneg (by omega)]
        rw [value] at rounds
        obtain ⟨k, same, small⟩ := whole_of_rounds positive rounds
        have large := fraction k same
        omega
      · next inside =>
        rw [readNumber_within negative some few (by omega) (by omega) ends]
        congr 1
        omega
  · rw [readNumber_exponent negative some few (by unfold exponentLimit; omega) ends]
    congr 1
    omega

end Reading

section Storing

open Float.Model Float.Model.UnpackedFloat

variable {bpm : Float}

theorem isWhole_of_magnitude {negative : Bool} {k : Nat} (bits : Binary.ofFloat bpm = .finite negative m e)
    (same : (m * 2 ^ e : ℚ) = k) (small : k < 2 ^ 63) : IsWhole bpm := by
  intro value found
  rw [bits] at found
  cases found
  cases negative with
  | true =>
    refine ⟨-k, ?_, by omega⟩
    rw [if_pos rfl, mul_assoc, same]
    push_cast
    ring
  | false =>
    refine ⟨k, ?_, by omega⟩
    rw [if_neg Bool.false_ne_true, mul_assoc, same, one_mul, Int.cast_natCast]

/-- Only what is whole is stored as an integer. -/
theorem isWhole_of_wholeTempo {n : Int} (found : wholeTempo bpm = some n) : IsWhole bpm := by
  unfold wholeTempo at found
  split at found
  · next negative m e bits =>
    dsimp only at found
    obtain ⟨k, magnitude, taken⟩ := Option.bind_eq_some_iff.mp found
    have small : k < 0x8000000000000000 := by
      by_contra large
      rw [if_neg large] at taken
      cases taken
    refine isWhole_of_magnitude bits (scaled_iff.mpr ?_) small
    split at magnitude
    · next above =>
      rw [show (-e).toNat = 0 by omega, Nat.pow_zero, Nat.mul_one, show e.toNat = e.natAbs by omega]
      split at magnitude
      · cases magnitude
      · cases magnitude
        rfl
    · next below =>
      rw [show e.toNat = 0 by omega, Nat.pow_zero, Nat.mul_one, show (-e).toNat = e.natAbs by omega]
      split at magnitude
      · next divides =>
        cases magnitude
        exact Nat.div_mul_cancel (Nat.dvd_of_mod_eq_zero (beq_iff_eq.mp divides))
      · cases magnitude
  · cases found

theorem wholeTempo_fraction (fraction : ¬IsWhole bpm) : wholeTempo bpm = none := by
  cases found : wholeTempo bpm with
  | none => rfl
  | some n => exact absurd (isWhole_of_wholeTempo found) fraction

theorem signed_parts {s : Sign} {positive : 0 < m} {x : Float} (same : parts bpm = .finite s m e positive)
    (magnitude : parts x = .finite .positive m e positive) : signed (isNegative s) x = bpm := by
  apply parts_injective
  rw [same]
  cases s with
  | positive => exact magnitude
  | negative => exact parts_neg magnitude

theorem parts_of_bits {negative : Bool} (bits : Binary.ofFloat bpm = .finite negative m e) (positive : 0 < m) :
    ∃ s, isNegative s = negative ∧ parts bpm = .finite s m e positive := by
  rw [ofFloat_eq] at bits
  cases same : parts bpm with
  | notANumber | infinity =>
    rw [same] at bits
    cases bits
  | zero s =>
    rw [same] at bits
    cases bits
    exact absurd positive (lt_irrefl 0)
  | finite s m' e' positive' =>
    rw [same] at bits
    cases bits
    exact ⟨s, rfl, rfl⟩

theorem reread_finite {negative : Bool} (bits : Binary.ofFloat bpm = .finite negative m e) : reread bpm =
    (scale (Float.ofNat (shortest .even m e).digits) (shortest .even m e).exponent).map (signed negative) := by
  rw [reread, bits]

/-- Short digits are scaled to the number that they stand for. -/
theorem IsShort.exact (short : IsShort bpm) : IsExact bpm := by
  obtain ⟨negative, m, e, bits, positive, few, near⟩ := short
  obtain ⟨s, rfl, same⟩ := parts_of_bits bits positive
  have double := isDouble_parts bpm
  rw [same] at double
  obtain ⟨fits, high⟩ := double.fits
  obtain ⟨rounds, _⟩ := shortest_rounds .even positive fits.short (e := e)
  obtain ⟨x, scaled, magnitude⟩ := scale_short positive fits high few near rounds
  rw [IsExact, reread_finite bits, scaled, Option.map_some, signed_parts same magnitude]

theorem isWhole_zero {s : Sign} (zero : parts bpm = .zero s) : IsWhole bpm := by
  have bits := ofFloat_eq bpm
  rw [zero] at bits
  exact isWhole_of_magnitude (k := 0) bits (by rw [Nat.cast_zero, zero_mul]) (by decide)

theorem parts_fraction (fraction : ¬IsWhole bpm) : ∃ s m e positive, parts bpm = .finite s m e positive := by
  cases same : parts bpm with
  | notANumber | infinity =>
    refine absurd (fun value found => ?_) fraction
    rw [ofFloat_eq, same] at found
    cases found
  | zero s => exact absurd (isWhole_zero same) fraction
  | finite s m e positive => exact ⟨s, m, e, positive, rfl⟩

/-- The text of a tempo that is not whole is read as its shortest digits, scaled by their exponent. -/
theorem spells_reread (fraction : ¬IsWhole bpm) :
    ∃ x, reread bpm = some x ∧ Spells (floatChars bpm) (.float x) := by
  obtain ⟨s, m, e, positive, same⟩ := parts_fraction fraction
  have bits := ofFloat_eq bpm
  have double := isDouble_parts bpm
  rw [same] at bits double
  obtain ⟨fits, high⟩ := double.fits
  have fractional (k : Nat) (same : (m * 2 ^ e : ℚ) = k) : 2 ^ 63 ≤ k :=
    Nat.le_of_not_lt fun small => fraction (isWhole_of_magnitude bits same small)
  have text : floatChars bpm = if isNegative s then '-' :: FloatStyle.data.magnitude m e
      else FloatStyle.data.magnitude m e := by
    rw [floatChars, isFinite_parts same, if_pos rfl, FloatStyle.chars, bits]
    rfl
  obtain ⟨x, scaled⟩ := scale_shortest positive fits high
  refine ⟨signed (isNegative s) x, ?_, ?_⟩
  · rw [reread_finite bits, scaled, Option.map_some]
  · rw [text]
    refine spells_signed fun rest ends => ?_
    rw [readNumber_magnitude _ positive fits high fractional ends, finishFloat, scaled]

end Storing

section Rereading

/-- What is read of a tempo as it is stored. -/
def rereadTempo (bpm : Option Float) : Option Float :=
  match wholeTempo (bpm.getD unsetTempo) with
  | some n => storedTempo (Float.ofInt n)
  | none => (reread (bpm.getD unsetTempo)).bind storedTempo

theorem rereadTempo_none : rereadTempo none = none := by
  obtain ⟨found, unset⟩ := stored_unset
  rw [rereadTempo, Option.getD_none, found]
  exact unset

variable {bpm : Float}

theorem rereadTempo_infinite (infinite : bpm.isFinite = false) : rereadTempo (some bpm) = none := by
  obtain ⟨found, _⟩ := stored_infinite infinite
  have isInfinite : (parts bpm).isFinite = false := infinite
  have none : reread bpm = none := by
    rw [reread, ofFloat_eq]
    cases same : parts bpm with
    | notANumber | infinity => rfl
    | zero | finite =>
      rw [same] at isInfinite
      cases isInfinite
  rw [rereadTempo, Option.getD_some, found]
  dsimp only
  rw [none]
  rfl

theorem rereadTempo_fraction (fraction : ¬IsWhole bpm) :
    rereadTempo (some bpm) = (reread bpm).bind storedTempo := by
  rw [rereadTempo, Option.getD_some, wholeTempo_fraction fraction]

theorem IsWhole.rereads (whole : IsWhole bpm) : rereadTempo (some bpm) = reloadedTempo (some bpm) := by
  cases finite : bpm.isFinite with
  | true =>
    obtain ⟨n, found, _, stored⟩ := stored_whole whole finite
    rw [rereadTempo, Option.getD_some, found]
    exact stored
  | false =>
    rw [rereadTempo_infinite finite]
    exact (stored_infinite finite).2.symm

end Rereading

end Tablature
