import Tablature.Decimal.Binary
import Tablature.NoteLength
import Tablature.Document.Tempo
import Tablature.Proofs.Double.Rounding

namespace Tablature.Double

open Float.Model Float.Model.UnpackedFloat

theorem zero_le_iff (x : Float) : 0.0 ≤ x ↔ parts x ≠ .notANumber ∧ 0 ≤ rank (parts x) := by
  rw [le_iff]
  exact ⟨fun above => above.2, fun above => ⟨nofun, above⟩⟩

theorem positive_of_rank {s : Sign} {m : Nat} {e : Int} {positive : 0 < m} (low : -1074 ≤ e)
    (above : 0 ≤ rank (.finite s m e positive)) : s = .positive := by
  cases s with
  | positive => rfl
  | negative =>
    simp only [rank, Sign.apply] at above
    omega

/-- The sum of two finite numbers above zero is rounded from the sum of their mantissas. -/
theorem add_finite {m n : Nat} {e p : Int} (positive : 0 < m) (positive' : 0 < n) :
    UnpackedFloat.add Format.binary64 (.finite .positive m e positive) (.finite .positive n p positive') =
      UnpackedFloat.round Format.binary64 .positive
        (m * 2 ^ (e - min e p).toNat + n * 2 ^ (p - min e p).toNat) (min e p) := by
  have scaled : 0 < m * 2 ^ (e - min e p).toNat := Nat.mul_pos positive (Nat.two_pow_pos _)
  have more : compare ((m * 2 ^ (e - min e p).toNat : Nat) + (n * 2 ^ (p - min e p).toNat : Nat) : Int) 0 = .gt :=
    Int.compare_eq_gt.mpr (by omega)
  simp only [UnpackedFloat.add, decreaseExponent, Nat.shiftLeft_eq, Sign.apply, UnpackedFloat.normalize, more]
  congr 1

theorem IsDouble.above {f g : UnpackedFloat} (double : IsDouble g) (number : g ≠ .notANumber)
    (above : rank f ≤ rank g) : Above f g := by
  refine ⟨double.rounded, ?_, ?_⟩
  · rw [double.inRange]
    exact number
  · rw [double.inRange]
    exact above

theorem add_above {f g : UnpackedFloat} (double : IsDouble f) (double' : IsDouble g) (number : f ≠ .notANumber)
    (number' : g ≠ .notANumber) (above : 0 ≤ rank f) (above' : 0 ≤ rank g) :
    Above f (UnpackedFloat.add Format.binary64 f g) := by
  cases f with
  | notANumber => exact absurd rfl number
  | infinity s =>
    cases s with
    | negative => exact absurd above (by decide)
    | positive =>
      cases g with
      | notANumber => exact absurd rfl number'
      | infinity s' =>
        cases s' with
        | negative => exact absurd above' (by decide)
        | positive => exact double.above number (Int.le_refl _)
      | zero | finite => exact double.above number (Int.le_refl _)
  | zero s =>
    cases g with
    | notANumber => exact absurd rfl number'
    | infinity | finite => exact double'.above number' above'
    | zero s' => cases s <;> cases s' <;> exact IsDouble.above ⟨trivial, rfl⟩ nofun (Int.le_refl _)
  | finite s m e positive =>
    cases positive_of_rank double.fits.1.low above
    cases g with
    | notANumber => exact absurd rfl number'
    | infinity s' =>
      cases s' with
      | negative => exact absurd above' (by decide)
      | positive => exact double'.above number' (Int.le_of_lt (rank_positive double).2)
    | zero => exact double.above number (Int.le_refl _)
    | finite s' n p positive' =>
      cases positive_of_rank double'.fits.1.low above'
      rw [add_finite]
      exact round_above double (Int.min_le_left _ _) (Nat.le_add_right _ _)

/-- Adding what is not below zero does not make a time smaller. -/
theorem le_add {x y : Float} (start : 0.0 ≤ x) (later : 0.0 ≤ y) : x ≤ x + y := by
  obtain ⟨number, above⟩ := (zero_le_iff x).mp start
  obtain ⟨number', above'⟩ := (zero_le_iff y).mp later
  have more := add_above (isDouble_parts x) (isDouble_parts y) number number' above above'
  have sum : parts (x + y) = clip (UnpackedFloat.add Format.binary64 (parts x) (parts y)) :=
    parts_ofModel_pack more.rounded
  rw [le_iff, sum]
  exact ⟨number, more.number, more.above⟩

def isPositive : Sign → Bool
  | .positive => true
  | .negative => false

/-- Numbers with a positive sign, zero and infinity among them. -/
def isPlus : UnpackedFloat → Bool
  | .infinity s | .zero s | .finite s _ _ _ => isPositive s
  | .notANumber => false

/-- Finite numbers above zero. -/
def isOrdinary : UnpackedFloat → Bool
  | .finite s _ _ _ => isPositive s
  | _ => false

theorem zero_le_of_plus {x : Float} (plus : isPlus (parts x) = true) : 0.0 ≤ x := by
  have double := isDouble_parts x
  rw [zero_le_iff]
  generalize parts x = f at plus double
  cases f with
  | notANumber => cases plus
  | zero s => exact ⟨nofun, Int.le_refl _⟩
  | infinity s =>
    cases s with
    | negative => cases plus
    | positive => exact ⟨nofun, by decide⟩
  | finite s m e positive =>
    cases s with
    | negative => cases plus
    | positive => exact ⟨nofun, Int.le_of_lt (rank_positive double).1⟩

theorem Reads.plus {e : BitVec 11} {m : BitVec 52} {f : UnpackedFloat} (reads : Reads .positive e m f)
    (finite : e ≠ 2047#11) : isPlus f = true := by
  cases reads with
  | notANumber top => exact absurd top finite
  | infinity | zero | scant | full => rfl

/-- A positive number stays one when it is stored, whatever its mantissa and exponent. -/
theorem plus_pack {m : Nat} {e : Int} (positive : 0 < m) :
    isPlus (UnpackedFloat.unpack Format.binary64
      (UnpackedFloat.pack Format.binary64 (.finite .positive m e positive))) = true := by
  unfold UnpackedFloat.pack
  dsimp only
  split
  · rfl
  · next small =>
    split
    · refine (unpack_packComponents .positive _ _).plus fun top => ?_
      have field := congrArg BitVec.toNat top
      change (e + 1023 + 52).toNat % 2048 = 2047 at field
      change ¬2048 ≤ (e + 1023 + 52).toNat + 1 at small
      omega
    · exact (unpack_packComponents .positive _ _).plus nofun

theorem plus_roundWithAccuracy (m : Nat) (e : Int) (accuracy : Accuracy) :
    isPlus (UnpackedFloat.unpack Format.binary64 (UnpackedFloat.pack Format.binary64
      (roundWithAccuracy Format.binary64 .positive m e accuracy))) = true := by
  unfold roundWithAccuracy
  dsimp only
  split
  · rfl
  · exact plus_pack _

theorem plus_of_ordinary {f : UnpackedFloat} (ordinary : isOrdinary f = true) : isPlus f = true := by
  cases f with
  | finite => exact ordinary
  | notANumber | infinity | zero => cases ordinary

theorem plus_div {x y : Float} (ordinary : isOrdinary (parts x) = true) (plus : isPlus (parts y) = true) :
    isPlus (parts (x / y)) = true := by
  change isPlus (UnpackedFloat.unpack _ (UnpackedFloat.pack _
    (UnpackedFloat.div Format.binary64 (parts x) (parts y)))) = _
  generalize parts x = f at ordinary
  generalize parts y = g at plus
  cases f with
  | notANumber | infinity | zero => cases ordinary
  | finite s m e positive =>
    cases s with
    | negative => cases ordinary
    | positive =>
      cases g with
      | notANumber => cases plus
      | infinity s =>
        cases s with
        | negative => cases plus
        | positive =>
          change isPlus (UnpackedFloat.unpack _ (UnpackedFloat.pack Format.binary64 (.zero .positive))) = true
          rfl
      | zero s =>
        cases s with
        | negative => cases plus
        | positive =>
          change isPlus (UnpackedFloat.unpack _ (UnpackedFloat.pack Format.binary64 (.infinity .positive))) = true
          rfl
      | finite s n p positive' =>
        cases s with
        | negative => cases plus
        | positive => exact plus_roundWithAccuracy _ _ _

theorem ordinary_of_usable {bpm : Float} (usable : isUsableTempo bpm = true) : isOrdinary (parts bpm) = true := by
  obtain ⟨finite, above⟩ := Bool.and_eq_true_iff.mp usable
  have finite : (parts bpm).isFinite = true := finite
  have above : UnpackedFloat.lt (.zero .positive) (parts bpm) = true := of_decide_eq_true (of_decide_eq_true above)
  generalize parts bpm = f at finite above
  cases f with
  | notANumber | infinity => cases finite
  | zero => cases above
  | finite s =>
    cases s with
    | negative => cases above
    | positive => rfl

theorem zero_le_minute {bpm : Float} (usable : isUsableTempo bpm = true) : 0.0 ≤ 60.0 / bpm :=
  zero_le_of_plus (plus_div rfl (plus_of_ordinary (ordinary_of_usable usable)))

/-- At a tempo that can be played no unit ends before it starts. -/
theorem zero_le_secondsAt {length : NoteLength} {bpm : Float} (playable : length.isPlayable = true)
    (usable : isUsableTempo bpm = true) : 0.0 ≤ length.secondsAt bpm := by
  have beats : isPlus (parts length.beats) = true := by
    cases length with
    | measureLine => cases playable
    | quarter | quarterTriplet | eighth | eighthTriplet | sixteenth | sixteenthTriplet => rfl
  exact zero_le_of_plus (plus_div rfl (plus_div (ordinary_of_usable usable) beats))

end Tablature.Double
