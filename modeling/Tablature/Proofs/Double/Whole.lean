import Tablature.Proofs.Double.Nonnegative

namespace Tablature.Double

open Float.Model Float.Model.UnpackedFloat

def isNegative (s : Sign) : Bool :=
  !isPositive s

/-- The parts of a double as the program takes them from its bits. -/
def toBinary : UnpackedFloat → Binary
  | .infinity s => .infinite (isNegative s)
  | .zero s => .finite (isNegative s) 0 (-1074)
  | .finite s mantissa exponent _ => .finite (isNegative s) mantissa exponent
  | .notANumber => .notANumber

section Fields

variable (b : BitVec 64)

theorem mantissaField_toNat : (mantissaField b).toNat = b.toNat % 2 ^ 52 := by
  rw [mantissaField, unpackMantissa_def, BitVec.extractLsb'_toNat, Nat.shiftRight_zero]

theorem exponentField_toNat : (exponentField b).toNat = b.toNat / 2 ^ 52 % 2 ^ 11 := by
  rw [exponentField, unpackExponent_def, BitVec.extractLsb'_toNat, Nat.shiftRight_eq_div_pow]

theorem sign_negative : (b.toNat / 0x8000000000000000 % 2 == 1) = isNegative (sign b) := by
  have bit : (sign b).toBitVec.toNat = b.toNat / 2 ^ 63 % 2 := by
    rw [sign, Sign.toBitVec_ofBitVec, unpackSign_def, BitVec.extractLsb'_toNat, Nat.shiftRight_eq_div_pow]
    rfl
  rw [show b.toNat / 0x8000000000000000 % 2 = _ from bit.symm]
  cases sign b <;> rfl

end Fields

/-- What the program makes of the three fields of a double. -/
theorem Reads.binary {s : Sign} {e : BitVec 11} {m : BitVec 52} {f : UnpackedFloat} (reads : Reads s e m f) :
    (if e.toNat == 2047 then (if m.toNat == 0 then .infinite (isNegative s) else .notANumber)
      else if e.toNat == 0 then .finite (isNegative s) m.toNat (-1074)
      else .finite (isNegative s) (2 ^ 52 + m.toNat) ((e.toNat : Int) - 1075)) = toBinary f := by
  cases reads with
  | infinity top zero =>
    subst top zero
    rfl
  | notANumber top nonzero =>
    have field : ¬m.toNat = 0 := fun none => nonzero (BitVec.eq_of_toNat_eq none)
    subst top
    simp only [beq_iff_eq, if_neg field]
    rfl
  | zero bottom zero =>
    subst bottom zero
    rfl
  | scant bottom same =>
    subst bottom same
    rfl
  | full low high same =>
    have notTop : ¬e.toNat = 2047 := by omega
    have notBottom : ¬e.toNat = 0 := by omega
    subst same
    simp only [beq_iff_eq, if_neg notTop, if_neg notBottom]
    rfl

theorem ofFloat_eq (x : Float) : Binary.ofFloat x = toBinary (parts x) := by
  have fields := (unpack_reads x.toModel.toBits.toBitVec).binary
  rw [← sign_negative, exponentField_toNat, mantissaField_toNat] at fields
  exact fields

section Integers

variable {n m : Nat} {e : Int}

/-- A whole number that fits is stored as it is. -/
theorem round_whole (s : Sign) (positive : 0 < m) (fits : Fits m e)
    (same : n * 2 ^ (-e).toNat = m * 2 ^ e.toNat) :
    UnpackedFloat.round Format.binary64 s n 0 = .finite s m e positive := by
  by_cases above : 0 ≤ e
  · have whole : n = m * 2 ^ e.toNat := by
      rw [show (-e).toNat = 0 by omega, Nat.pow_zero, Nat.mul_one] at same
      exact same
    have place := precision_mul (e := e) positive e.toNat
    rw [fits.precision, ← whole, show e - (e.toNat : Int) = 0 by omega] at place
    have exact' := roundWithAccuracy_exact s positive fits e.toNat
    rw [← whole, show e - (e.toNat : Int) = 0 by omega] at exact'
    rw [UnpackedFloat.round, targetExponent_eq, place, decreaseExponent, show ((0 : Int) - e).toNat = 0 by omega]
    simp only [Nat.shiftLeft_zero, Int.cast_ofNat_Int, Int.sub_zero]
    exact exact'
  · have whole : n * 2 ^ (-e).toNat = m := by
      rw [same, show e.toNat = 0 by omega, Nat.pow_zero, Nat.mul_one]
    have present : 0 < n := by
      apply Nat.pos_of_ne_zero
      rintro rfl
      omega
    have place := precision_mul (e := 0) present (-e).toNat
    rw [whole, show (0 : Int) - ((-e).toNat : Int) = e by omega, fits.precision] at place
    have exact' := roundWithAccuracy_exact s positive fits 0
    rw [Nat.pow_zero, Nat.mul_one, Int.cast_ofNat_Int, Int.sub_zero] at exact'
    rw [UnpackedFloat.round, targetExponent_eq, ← place, decreaseExponent,
      show ((0 : Int) - e).toNat = (-e).toNat by omega,
      Nat.shiftLeft_eq, whole, show (0 : Int) - ((-e).toNat : Int) = e by omega]
    exact exact'

/-- A finite double is the same as what is packed from its parts. -/
theorem unpack_pack_finite (s : Sign) (positive : 0 < m) (fits : Fits m e) (high : e ≤ 971) :
    UnpackedFloat.unpack Format.binary64 (UnpackedFloat.pack Format.binary64 (.finite s m e positive)) =
      .finite s m e positive := by
  have rounded : Rounded (.finite s m e positive) := fits
  rw [unpack_pack rounded, clip, if_neg (by omega)]

theorem parts_neg {x : Float} {positive : 0 < m} (same : parts x = .finite .positive m e positive) :
    parts (-x) = .finite .negative m e positive := by
  have double := isDouble_parts x
  rw [same] at double
  obtain ⟨fits, high⟩ := double.fits
  change UnpackedFloat.unpack _ (UnpackedFloat.pack _ (UnpackedFloat.neg (parts x))) = _
  rw [same]
  exact unpack_pack_finite .negative positive fits high

theorem parts_ofUInt64 {i : UInt64} (positive : 0 < m) (fits : Fits m e) (high : e ≤ 971)
    (same : i.toNat * 2 ^ (-e).toNat = m * 2 ^ e.toNat) : parts i.toFloat = .finite .positive m e positive := by
  have present : (0 : Int) < i.toNat := by
    rcases Nat.eq_zero_or_pos i.toNat with none | present
    · rw [none, Nat.zero_mul] at same
      have scaled := Nat.mul_pos positive (Nat.two_pow_pos e.toNat)
      omega
    · omega
  have rounds : UnpackedFloat.ofUInt64 Format.binary64 i = .finite .positive m e positive := by
    rw [← round_whole .positive positive fits same, UnpackedFloat.ofUInt64, UnpackedFloat.ofNat, UnpackedFloat.ofInt,
      UnpackedFloat.normalize, Int.compare_eq_gt.mpr present]
    rfl
  change UnpackedFloat.unpack _ (UnpackedFloat.pack _ (UnpackedFloat.ofUInt64 _ i)) = _
  rw [rounds, unpack_pack_finite .positive positive fits high]

theorem ofScientific_up (present : 0 < n) {k : Nat} (small : k ≤ 2048) :
    UnpackedFloat.ofScientific Format.binary64 n k =
      roundWithAccuracy Format.binary64 .positive (n * 2 ^ 53 * 10 ^ k) (-53) .exact := by
  have notHuge : ¬(k : Int) > 2 ^ Format.binary64.exponentBits := by
    change ¬(k : Int) > 2048
    omega
  have notTiny : ¬(k : Int) < -((2 ^ Format.binary64.exponentBits : Int) + n.log2) := by
    change ¬(k : Int) < -(2048 + (n.log2 : Int))
    omega
  rw [UnpackedFloat.ofScientific, dif_neg present.ne', if_neg notHuge, if_neg notTiny, if_pos (Int.natCast_nonneg k)]
  have bits : Format.binary64.mantissaBits = 53 := rfl
  simp only [UnpackedFloat.mul, bits, Int.toNat_natCast, Nat.shiftLeft_eq, Int.add_zero]
  rfl

/-- A whole number that fits is read as the double that it is. -/
theorem parts_ofNat (positive : 0 < m) (fits : Fits m e) (high : e ≤ 971)
    (same : n * 2 ^ (-e).toNat = m * 2 ^ e.toNat) :
    parts (Float.ofNat n) = .finite .positive m e positive := by
  by_cases small : n < 2 ^ 53
  · have integer : n.toUInt64.toNat = n := Nat.mod_eq_of_lt (by omega)
    have factor : parts n.toUInt64.toFloat = .finite .positive m e positive :=
      parts_ofUInt64 positive fits high (by rw [integer, same])
    have one : parts (Float.ofBits 0x3FF0000000000000) = .finite .positive (2 ^ 52) (-52) (by decide) := rfl
    have product : Float.ofNat n = n.toUInt64.toFloat * Float.ofBits 0x3FF0000000000000 :=
      dif_pos ⟨small, by decide⟩
    rw [product]
    change UnpackedFloat.unpack _ (UnpackedFloat.pack _ (UnpackedFloat.mul _ (parts n.toUInt64.toFloat) (parts _))) = _
    rw [factor, one]
    change UnpackedFloat.unpack _ (UnpackedFloat.pack _
      (roundWithAccuracy _ .positive (m * 2 ^ 52) (e - (52 : Nat)) .exact)) = _
    rw [roundWithAccuracy_exact .positive positive fits, unpack_pack_finite .positive positive fits high]
  · have above : 0 ≤ e := by
      by_contra below
      rw [show e.toNat = 0 by omega, Nat.pow_zero, Nat.mul_one] at same
      have short := fits.short
      have scaled := Nat.le_mul_of_pos_right n (Nat.two_pow_pos (-e).toNat)
      omega
    have whole : n = m * 2 ^ e.toNat := by
      rw [show (-e).toNat = 0 by omega, Nat.pow_zero, Nat.mul_one] at same
      exact same
    have scaled : n * 2 ^ 53 = m * 2 ^ (e.toNat + 53) := by rw [whole, Nat.mul_assoc, ← Nat.pow_add]
    have quotient : Float.ofNat n = .ofModel (Float.Model.ofScientific n 0) := dif_neg fun small' => small small'.1
    have exactly := ofScientific_up (n := n) (k := 0) (by omega) (by decide)
    rw [Nat.pow_zero, Nat.mul_one] at exactly
    rw [quotient]
    change UnpackedFloat.unpack _ (UnpackedFloat.pack _ (UnpackedFloat.ofScientific _ n (0 : Nat))) = _
    rw [exactly, scaled, show (-53 : Int) = e - ((e.toNat + 53 : Nat) : Int) by omega,
      roundWithAccuracy_exact .positive positive fits, unpack_pack_finite .positive positive fits high]

/-- A whole number of at most 53 bits, shifted up, is read as the double that it is. -/
theorem parts_ofNat_scaled (present : 0 < n) (short : n < 2 ^ 53) {j : Nat} (high : j ≤ 971) :
    ∃ (k : Nat) (scaled : 0 < n * 2 ^ k),
      parts (Float.ofNat (n * 2 ^ j)) = .finite .positive (n * 2 ^ k) (j - k) scaled := by
  have bits : n.log2 < 53 := (Nat.log2_lt present.ne').mpr short
  have low : 2 ^ 52 ≤ n * 2 ^ (52 - n.log2) := by
    have least := Nat.mul_le_mul_right (2 ^ (52 - n.log2)) (Nat.log2_self_le present.ne')
    rwa [← Nat.pow_add, show n.log2 + (52 - n.log2) = 52 by omega] at least
  have top : n * 2 ^ (52 - n.log2) < 2 ^ 53 := by
    have most := (Nat.mul_lt_mul_right (Nat.two_pow_pos (52 - n.log2))).mpr (Nat.lt_log2_self (n := n))
    rwa [← Nat.pow_add, show n.log2 + 1 + (52 - n.log2) = 53 by omega] at most
  have fits : Fits (n * 2 ^ (52 - n.log2)) (j - (52 - n.log2 : Nat)) := ⟨top, by omega, fun _ => low⟩
  refine ⟨52 - n.log2, by omega, parts_ofNat (by omega) fits (by omega) ?_⟩
  rw [Nat.mul_assoc, Nat.mul_assoc, ← Nat.pow_add, ← Nat.pow_add]
  congr 2
  omega

theorem parts_ofNat_short (present : 0 < n) (short : n < 2 ^ 53) : ∃ (k : Nat) (scaled : 0 < n * 2 ^ k),
    parts (Float.ofNat n) = .finite .positive (n * 2 ^ k) (-k) scaled := by
  obtain ⟨k, scaled, same⟩ := parts_ofNat_scaled present short (Nat.zero_le 971)
  refine ⟨k, scaled, ?_⟩
  rwa [Nat.pow_zero, Nat.mul_one, Int.cast_ofNat_Int, Int.zero_sub] at same

theorem zero_le_ofNat (small : n < 2 ^ 53) : 0.0 ≤ Float.ofNat n := by
  rcases Nat.eq_zero_or_pos n with rfl | present
  · exact zero_le_of_plus rfl
  · obtain ⟨k, _, same⟩ := parts_ofNat_short present small
    apply zero_le_of_plus
    rw [same]
    rfl

end Integers

theorem ceiling_small {m unit : Nat} (short : m < 2 ^ 53) (positive : 0 < unit) :
    (m + (unit - 1)) / unit < 2 ^ 53 := by
  apply Nat.div_lt_of_lt_mul
  have scaled : unit - 1 ≤ 2 ^ 53 * (unit - 1) := Nat.le_mul_of_pos_left _ (by decide)
  have whole : 2 ^ 53 * (unit - 1) + 2 ^ 53 = unit * 2 ^ 53 := by
    rw [← Nat.mul_succ, Nat.succ_eq_add_one, Nat.sub_add_cancel positive, Nat.mul_comm]
  omega

theorem zero_le_roundUp_finite {x : Float} {negative : Bool} {m : Nat} {e : Int} (start : 0.0 ≤ x)
    (same : Binary.ofFloat x = .finite negative m e) (short : m < 2 ^ 53) (zero : negative = true → m = 0) :
    0.0 ≤ roundUp x := by
  simp only [roundUp, same]
  split
  · exact start
  · cases negative with
    | false => exact zero_le_ofNat (ceiling_small short (Nat.two_pow_pos e.natAbs))
    | true =>
      rw [zero rfl, Nat.zero_div, if_pos rfl]
      exact (zero_le_iff _).mpr ⟨nofun, Int.le_refl _⟩

/-- Rounding up does not lead below zero. -/
theorem zero_le_roundUp {x : Float} (start : 0.0 ≤ x) : 0.0 ≤ roundUp x := by
  obtain ⟨number, above⟩ := (zero_le_iff x).mp start
  have double := isDouble_parts x
  have bits := ofFloat_eq x
  generalize parts x = f at number above double bits
  cases f with
  | notANumber => exact absurd rfl number
  | infinity s =>
    have same : roundUp x = x := by simp only [roundUp, bits, toBinary]
    rw [same]
    exact start
  | zero s => exact zero_le_roundUp_finite start bits (by decide) fun _ => rfl
  | finite s m e positive =>
    cases positive_of_rank double.fits.1.low above
    exact zero_le_roundUp_finite start bits double.fits.1.short nofun

end Tablature.Double
