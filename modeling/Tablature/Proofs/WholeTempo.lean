import Tablature.Document.Encode
import Tablature.Proofs.Double.Whole

namespace Tablature

/-- The number that a finite double is. -/
def Binary.value? : Binary → Option ℚ
  | finite negative mantissa exponent => some ((if negative then -1 else 1) * mantissa * 2 ^ exponent)
  | infinite _ | notANumber => none

/-- A tempo that is stored as an integer if it is finite. -/
def IsWhole (bpm : Float) : Prop :=
  ∀ value, (Binary.ofFloat bpm).value? = some value → ∃ n : ℤ, value = n ∧ n.natAbs < 2 ^ 63

open Double Float.Model Float.Model.UnpackedFloat

/-- Scaling by a power of two, without fractions. -/
theorem scaled_iff {m k : Nat} {e : Int} : (m : ℚ) * 2 ^ e = k ↔ k * 2 ^ (-e).toNat = m * 2 ^ e.toNat := by
  have split : (2 : ℚ) ^ e * 2 ^ (-e).toNat = 2 ^ e.toNat := by
    rw [← zpow_natCast, ← zpow_natCast, ← zpow_add₀ (by decide)]
    congr 1
    omega
  have unit : (2 : ℚ) ^ (-e).toNat ≠ 0 := by positivity
  rw [← mul_left_inj' unit, mul_assoc, split, eq_comm]
  exact_mod_cast Iff.rfl

/-- A whole tempo is found to be one. -/
theorem wholeTempo_finite {bpm : Float} {negative : Bool} {m k : Nat} {e : Int}
    (bits : Binary.ofFloat bpm = .finite negative m e) (same : k * 2 ^ (-e).toNat = m * 2 ^ e.toNat)
    (small : k < 2 ^ 63) : wholeTempo bpm = some (if negative then -(k : Int) else k) := by
  have found : (if 0 ≤ e then (if 64 ≤ e && m != 0 then none else some (m * Nat.pow 2 e.natAbs))
      else if m % Nat.pow 2 e.natAbs == 0 then some (m / Nat.pow 2 e.natAbs) else none) = some k := by
    by_cases above : 0 ≤ e
    · rw [show (-e).toNat = 0 by omega, Nat.pow_zero, Nat.mul_one, show e.toNat = e.natAbs by omega] at same
      have kept : ¬(64 ≤ e && m != 0) = true := by
        intro large
        obtain ⟨high, nonzero⟩ := Bool.and_eq_true_iff.mp large
        have high : 64 ≤ e := of_decide_eq_true high
        have positive : 0 < m := Nat.pos_of_ne_zero (bne_iff_ne.mp nonzero)
        have power : 2 ^ 64 ≤ 2 ^ e.natAbs := Nat.pow_le_pow_right (by decide) (by omega)
        have more := Nat.le_mul_of_pos_left (2 ^ e.natAbs) positive
        omega
      rw [if_pos above, if_neg kept, same]
      rfl
    · rw [show e.toNat = 0 by omega, Nat.pow_zero, Nat.mul_one, show (-e).toNat = e.natAbs by omega] at same
      have divides : m % Nat.pow 2 e.natAbs = 0 := by
        rw [← same]
        exact Nat.mul_mod_left _ _
      have quotient : m / Nat.pow 2 e.natAbs = k := by
        rw [← same]
        exact Nat.mul_div_cancel _ (Nat.two_pow_pos _)
      rw [if_neg above, if_pos (beq_iff_eq.mpr divides), quotient]
  unfold wholeTempo
  rw [bits]
  dsimp only
  rw [found]
  exact if_pos small

/-- A whole number read back is the double that it was written for. -/
theorem ofInt_whole {bpm : Float} {s : Sign} {m k : Nat} {e : Int} {positive : 0 < m}
    (same : parts bpm = .finite s m e positive) (scaled : k * 2 ^ (-e).toNat = m * 2 ^ e.toNat) :
    Float.ofInt (if isNegative s then -(k : Int) else k) = bpm := by
  have double := isDouble_parts bpm
  rw [same] at double
  obtain ⟨fits, high⟩ := double.fits
  have magnitude := parts_ofNat positive fits high scaled
  apply parts_injective
  rw [same]
  cases s with
  | positive => exact magnitude
  | negative =>
    obtain ⟨j, rfl⟩ : ∃ j, k = j + 1 := by
      refine Nat.exists_eq_succ_of_ne_zero ?_
      rintro rfl
      have more := Nat.mul_pos positive (Nat.two_pow_pos e.toNat)
      omega
    have opposite : Float.ofInt (if isNegative .negative then -((j + 1 : Nat) : Int) else (j + 1 : Nat)) =
        -Float.ofNat (j + 1) := rfl
    rw [opposite]
    exact parts_neg magnitude

/-- What a tempo is after it was stored and read again: one that stands for "no tempo set", or that is not finite,
is not set any more, and a zero has lost its sign. -/
def reloadedTempo : Option Float → Option Float
  | some bpm => if bpm.isFinite && bpm != unsetTempo then some (if bpm == 0.0 then 0.0 else bpm) else none
  | none => none

theorem beq_parts (x y : Float) : (x == y) = UnpackedFloat.beq (parts x) (parts y) := rfl

/-- A finite number other than zero is what is read of it, unless it stands for "no tempo set". -/
theorem stored_finite {bpm : Float} {s : Sign} {m : Nat} {e : Int} {positive : 0 < m}
    (same : parts bpm = .finite s m e positive) : storedTempo bpm = reloadedTempo (some bpm) := by
  have finite := isFinite_parts same
  have nonzero : (bpm == 0.0) = false := by
    rw [beq_parts, same]
    cases s <;> rfl
  rw [storedTempo, reloadedTempo, finite, nonzero, bne]
  cases bpm == unsetTempo <;> rfl

theorem IsWhole.magnitude {bpm : Float} (whole : IsWhole bpm) {s : Sign} {m : Nat} {e : Int} {positive : 0 < m}
    (same : parts bpm = .finite s m e positive) : ∃ k : Nat, (m : ℚ) * 2 ^ e = k ∧ k < 2 ^ 63 := by
  have bits := ofFloat_eq bpm
  rw [same] at bits
  have value : (Binary.ofFloat bpm).value? = some ((if isNegative s then -1 else 1 : ℚ) * m * 2 ^ e) := by
    rw [bits]
    rfl
  obtain ⟨n, isInt, small⟩ := whole _ value
  have power : (0 : ℚ) < 2 ^ e := by positivity
  have sign : |(if isNegative s then -1 else 1 : ℚ)| = 1 := by
    cases s
    · exact (abs_neg 1).trans abs_one
    · exact abs_one
  refine ⟨n.natAbs, ?_, small⟩
  calc (m : ℚ) * 2 ^ e = |(if isNegative s then -1 else 1 : ℚ) * m * 2 ^ e| := by
        rw [abs_mul, abs_mul, sign, one_mul, Nat.abs_cast, abs_of_pos power]
    _ = n.natAbs := by rw [isInt, Nat.cast_natAbs, Int.cast_abs]

/-- A whole tempo is stored as an integer, from which it is read again. -/
theorem stored_whole {bpm : Float} (whole : IsWhole bpm) (finite : bpm.isFinite = true) :
    ∃ n : Int, wholeTempo bpm = some n ∧ n.natAbs < 2 ^ 63 ∧
      storedTempo (Float.ofInt n) = reloadedTempo (some bpm) := by
  have bits := ofFloat_eq bpm
  have isFinite : (parts bpm).isFinite = true := finite
  cases same : parts bpm with
  | notANumber | infinity =>
    rw [same] at isFinite
    cases isFinite
  | zero s =>
    rw [same] at bits
    have found := wholeTempo_finite (k := 0) bits (by rw [Nat.zero_mul, Nat.zero_mul]) (by decide)
    refine ⟨0, ?_, by decide, ?_⟩
    · rw [found]
      cases s <;> rfl
    · have set : (bpm != unsetTempo) = true := by
        rw [bne, beq_parts, same]
        cases s <;> rfl
      have zero : (bpm == 0.0) = true := by
        rw [beq_parts, same]
        rfl
      rw [reloadedTempo, finite, set, zero]
      rfl
  | finite s m e positive =>
    rw [same] at bits
    obtain ⟨k, magnitude, small⟩ := whole.magnitude same
    have scaled := scaled_iff.mp magnitude
    have found := wholeTempo_finite bits scaled small
    refine ⟨_, found, ?_, ?_⟩
    · cases s
      · change (-(k : Int)).natAbs < _
        omega
      · change (k : Int).natAbs < _
        omega
    · rw [ofInt_whole same scaled, stored_finite same]

theorem stored_infinite {bpm : Float} (infinite : bpm.isFinite = false) :
    wholeTempo bpm = none ∧ reloadedTempo (some bpm) = none := by
  have bits := ofFloat_eq bpm
  have isInfinite : (parts bpm).isFinite = false := infinite
  constructor
  · cases same : parts bpm with
    | notANumber | infinity =>
      rw [same] at bits
      rw [wholeTempo, bits]
      rfl
    | zero | finite =>
      rw [same] at isInfinite
      cases isInfinite
  · rw [reloadedTempo, infinite]
    rfl

theorem stored_unset : wholeTempo unsetTempo = some (-1) ∧ storedTempo (Float.ofInt (-1)) = none :=
  ⟨rfl, rfl⟩

/-- No other number is equal to a positive one. -/
theorem beq_ordinary {x y : Float} (ordinary : isOrdinary (parts x) = true) (other : isOrdinary (parts y) = false) :
    (x == y) = false := by
  rw [beq_parts, Bool.eq_false_iff, ne_eq, beq_iff_ne_notANumber_and_eq]
  rintro ⟨_, _, same | ⟨zero, _⟩ | ⟨zero, _⟩⟩
  · rw [same, other] at ordinary
    cases ordinary
  · rw [zero] at ordinary
    cases ordinary
  · rw [zero] at ordinary
    cases ordinary

/-- Storing a tempo does not change what is played. -/
theorem resolveTempo_reloaded (override : Option Float) (enclosing : Float) :
    resolveTempo (reloadedTempo override) enclosing = resolveTempo override enclosing := by
  cases override with
  | none => rfl
  | some bpm =>
    by_cases usable : isUsableTempo bpm = true
    · have finite := (Bool.and_eq_true_iff.mp usable).1
      have set : (bpm == unsetTempo) = false := beq_ordinary (ordinary_of_usable usable) rfl
      have nonzero : (bpm == 0.0) = false := beq_ordinary (ordinary_of_usable usable) rfl
      rw [reloadedTempo, finite, bne, set, nonzero]
      rfl
    · have other : resolveTempo (some bpm) enclosing = enclosing := if_neg usable
      rw [other, reloadedTempo]
      split
      · split
        · rfl
        · exact other
      · rfl

end Tablature
