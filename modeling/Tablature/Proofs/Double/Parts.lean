import Mathlib

namespace Tablature.Double

open Float.Model Float.Model.UnpackedFloat

/-- A double taken apart: not a number, an infinity, a zero, or a sign with a mantissa and an exponent. -/
def parts (x : Float) : UnpackedFloat :=
  x.toModel.unpack

section Fields

variable (b : BitVec 64)

def sign : Sign :=
  .ofBitVec (@unpackSign Format.binary64 b)

def exponentField : BitVec 11 :=
  @unpackExponent Format.binary64 b

def mantissaField : BitVec 52 :=
  @unpackMantissa Format.binary64 b

theorem one_append_toNat (m : BitVec 52) : (1#1 ++ m).toNat = 2 ^ 52 + m.toNat := by
  rw [BitVec.toNat_append, ← Nat.shiftLeft_add_eq_or_of_lt m.isLt]
  rfl

/-- What a sign, an exponent field and a mantissa field stand for. -/
inductive Reads (s : Sign) (e : BitVec 11) (m : BitVec 52) : UnpackedFloat → Prop
  | infinity (top : e = 2047#11) (zero : m = 0#52) : Reads s e m (.infinity s)
  | notANumber (top : e = 2047#11) (nonzero : m ≠ 0#52) : Reads s e m .notANumber
  | zero (bottom : e = 0#11) (zero : m = 0#52) : Reads s e m (.zero s)
  | scant {k : Nat} {positive : 0 < k} (bottom : e = 0#11) (same : k = m.toNat) :
      Reads s e m (.finite s k (-1074) positive)
  | full {k : Nat} {positive : 0 < k} (low : 0 < e.toNat) (high : e.toNat < 2047) (same : k = 2 ^ 52 + m.toNat) :
      Reads s e m (.finite s k (e.toNat - 1075) positive)

theorem unpack_reads :
    Reads (sign b) (exponentField b) (mantissaField b) (UnpackedFloat.unpack Format.binary64 b) := by
  unfold UnpackedFloat.unpack
  dsimp only
  split
  · next top =>
    split
    · next m => exact .infinity top m
    · next m => exact .notANumber top m
  · next top =>
    split
    · next bottom =>
      split
      · next m => exact .zero bottom m
      · next m =>
        have least : ((exponentField b).toNat : Int) -
            (Format.binary64.exponentBias + Format.binary64.mantissaBitsWithoutImplicit : Nat) + 1 = -1074 := by
          rw [show exponentField b = 0#11 from bottom]
          rfl
        have positive : 0 < (mantissaField b).toNat := Nat.pos_of_ne_zero fun none => m (BitVec.eq_of_toNat_eq none)
        have scant : Reads (sign b) (exponentField b) (mantissaField b)
            (.finite (sign b) (mantissaField b).toNat (-1074) positive) := .scant bottom rfl
        rw [← least] at scant
        exact scant
    · next bottom =>
      have bound := (exponentField b).isLt
      have notTop : (exponentField b).toNat ≠ 2047 := fun same => top (BitVec.eq_of_toNat_eq same)
      have notBottom : (exponentField b).toNat ≠ 0 := fun same => bottom (BitVec.eq_of_toNat_eq same)
      exact .full (by omega) (by omega) (one_append_toNat _)

end Fields

section Packing

variable {m : Nat} {e : Int}

theorem unpack_packComponents (s : Sign) (e : BitVec 11) (m : BitVec 52) :
    Reads s e m (UnpackedFloat.unpack Format.binary64 (packComponents Format.binary64 s e m)) := by
  have reads := unpack_reads (packComponents Format.binary64 s e m)
  have sameSign : sign (packComponents Format.binary64 s e m) = s := by
    rw [sign, unpackSign_packComponents, Sign.ofBitVec_toBitVec]
  rw [sameSign, show exponentField _ = e from unpackExponent_packComponents,
    show mantissaField _ = m from unpackMantissa_packComponents] at reads
  exact reads

theorem log2_full (full : 2 ^ 52 ≤ m) (short : m < 2 ^ 53) : m.log2 = 52 :=
  (Nat.log2_eq_iff (by omega)).mpr ⟨full, short⟩

theorem pack_full (s : Sign) (positive : 0 < m) (full : 2 ^ 52 ≤ m) (short : m < 2 ^ 53)
    (low : -1074 ≤ e) (high : e ≤ 971) :
    UnpackedFloat.pack Format.binary64 (.finite s m e positive) =
      packComponents Format.binary64 s (BitVec.ofNat 11 (e + 1075).toNat) (BitVec.ofNat 52 m) := by
  have biased : (e + Format.binary64.exponentBias + Format.binary64.mantissaBitsWithoutImplicit).toNat =
      (e + 1075).toNat := by
    change (e + 1023 + 52).toNat = _
    omega
  have small : ¬2 ^ Format.binary64.exponentBits ≤ (e + 1075).toNat + 1 := by
    change ¬2048 ≤ _
    omega
  simp only [UnpackedFloat.pack, biased, if_neg small, log2_full full short]
  rfl

theorem pack_scant (s : Sign) (positive : 0 < m) (scant : m < 2 ^ 52) :
    UnpackedFloat.pack Format.binary64 (.finite s m (-1074) positive) =
      packComponents Format.binary64 s 0#11 (BitVec.ofNat 52 m) := by
  have few : ¬m.log2 + 1 = Format.binary64.mantissaBits := by
    have log : m.log2 < 52 := (Nat.log2_lt (by omega)).mpr scant
    change ¬m.log2 + 1 = 53
    omega
  simp only [UnpackedFloat.pack, if_neg few]
  rfl

theorem pack_large (s : Sign) (positive : 0 < m) (large : 971 < e) :
    UnpackedFloat.pack Format.binary64 (.finite s m e positive) = packedInfinity Format.binary64 s := by
  have beyond : 2 ^ Format.binary64.exponentBits ≤
      (e + Format.binary64.exponentBias + Format.binary64.mantissaBitsWithoutImplicit).toNat + 1 := by
    change 2048 ≤ (e + 1023 + 52).toNat + 1
    omega
  simp only [UnpackedFloat.pack, if_pos beyond]

end Packing

section Reading

variable {s : Sign} {e : BitVec 11} {m : BitVec 52} {mantissa : Nat} {exponent : Int} {f : UnpackedFloat}

/-- A finite double has a mantissa of 53 bits, all of which are used unless its exponent is the least. -/
structure Fits (mantissa : Nat) (exponent : Int) : Prop where
  short : mantissa < 2 ^ 53
  low : -1074 ≤ exponent
  full : exponent ≠ -1074 → 2 ^ 52 ≤ mantissa

/-- What rounding gives: a mantissa that fits, at an exponent that may be too large for a double. -/
def Rounded : UnpackedFloat → Prop
  | .finite _ mantissa exponent _ => Fits mantissa exponent
  | _ => True

/-- Numbers too large for a double are infinite. -/
def clip : UnpackedFloat → UnpackedFloat
  | .finite s mantissa exponent positive => if 971 < exponent then .infinity s else .finite s mantissa exponent positive
  | f => f

/-- What can be the parts of a double. -/
structure IsDouble (f : UnpackedFloat) : Prop where
  rounded : Rounded f
  inRange : clip f = f

theorem Reads.isDouble (reads : Reads s e m f) : IsDouble f := by
  have bound := m.isLt
  cases reads with
  | infinity | notANumber | zero => exact ⟨trivial, rfl⟩
  | scant bottom same => exact ⟨⟨by omega, by omega, fun other => absurd rfl other⟩, rfl⟩
  | full low high same => exact ⟨⟨by omega, by omega, fun _ => by omega⟩, if_neg (by omega)⟩

theorem IsDouble.fits {positive : 0 < mantissa} (double : IsDouble (.finite s mantissa exponent positive)) :
    Fits mantissa exponent ∧ exponent ≤ 971 := by
  refine ⟨double.rounded, ?_⟩
  by_contra large
  have clipped := double.inRange
  rw [clip, if_pos (by omega)] at clipped
  cases clipped

/-- Reading what was packed gives the number back, up to overflow. -/
theorem unpack_pack (rounded : Rounded f) :
    UnpackedFloat.unpack Format.binary64 (UnpackedFloat.pack Format.binary64 f) = clip f := by
  cases f with
  | notANumber => rfl
  | infinity s => cases s <;> rfl
  | zero s => cases s <;> rfl
  | finite s mantissa exponent positive =>
    obtain ⟨short, low, full⟩ := rounded
    by_cases large : 971 < exponent
    · rw [pack_large s positive large, clip, if_pos large]
      cases s <;> rfl
    rw [clip, if_neg large]
    by_cases scant : mantissa < 2 ^ 52
    · have least : exponent = -1074 := by
        by_contra other
        exact absurd (full other) (by omega)
      subst least
      rw [pack_scant s positive scant]
      have field : (BitVec.ofNat 52 mantissa).toNat = mantissa := Nat.mod_eq_of_lt scant
      have reads := unpack_packComponents s 0#11 (BitVec.ofNat 52 mantissa)
      generalize UnpackedFloat.unpack _ _ = g at reads
      cases reads with
      | infinity top => cases top
      | notANumber top => cases top
      | zero _ zero => rw [zero] at field; subst field; cases positive
      | scant _ same => simp only [same, field]
      | full low => cases low
    · rw [pack_full s positive (by omega) short low (by omega)]
      have field : (BitVec.ofNat 11 (exponent + 1075).toNat).toNat = (exponent + 1075).toNat :=
        Nat.mod_eq_of_lt (by omega)
      have rest : (BitVec.ofNat 52 mantissa).toNat = mantissa - 2 ^ 52 := by
        rw [BitVec.toNat_ofNat]
        omega
      have reads := unpack_packComponents s (BitVec.ofNat 11 (exponent + 1075).toNat) (BitVec.ofNat 52 mantissa)
      generalize UnpackedFloat.unpack _ _ = g at reads
      cases reads with
      | infinity top => rw [top] at field; change 2047 = _ at field; omega
      | notANumber top => rw [top] at field; change 2047 = _ at field; omega
      | zero bottom => rw [bottom] at field; change 0 = _ at field; omega
      | scant bottom => rw [bottom] at field; change 0 = _ at field; omega
      | full _ _ same =>
        have whole : 2 ^ 52 + (BitVec.ofNat 52 mantissa).toNat = mantissa := by omega
        have back : ((BitVec.ofNat 11 (exponent + 1075).toNat).toNat : Int) - 1075 = exponent := by omega
        simp only [same, whole, back]

end Reading

section Doubles

variable (x : Float)

theorem isDouble_parts : IsDouble (parts x) :=
  (unpack_reads _).isDouble

/-- A double is put together again from its parts. -/
theorem pack_parts : Float.Model.pack (parts x) = x.toModel := by
  obtain ⟨⟨bits, valid⟩⟩ := x
  simp only [Float.Model.pack]
  congr 1
  exact congrArg UInt64.ofBitVec (pack_unpack_of_valid valid)

theorem parts_injective {x y : Float} (same : parts x = parts y) : x = y := by
  obtain ⟨x⟩ := x
  obtain ⟨y⟩ := y
  have packed := congrArg Float.Model.pack same
  rw [pack_parts, pack_parts] at packed
  exact congrArg Float.ofModel packed

theorem isFinite_parts {x : Float} {s : Sign} {m : Nat} {e : Int} {positive : 0 < m}
    (same : parts x = .finite s m e positive) : x.isFinite = true := by
  change (parts x).isFinite = true
  rw [same]
  rfl

theorem isInf_parts {x : Float} {s : Sign} {m : Nat} {e : Int} {positive : 0 < m}
    (same : parts x = .finite s m e positive) : x.isInf = false := by
  change (parts x).isInf = false
  rw [same]
  rfl

/-- The parts of a result are what rounding gave, if it is not too large. -/
theorem parts_ofModel_pack {f : UnpackedFloat} (rounded : Rounded f) :
    parts (.ofModel (.pack f)) = clip f :=
  unpack_pack rounded

theorem sub_zero (x : Float) : x - 0.0 = x := by
  have difference : UnpackedFloat.sub Format.binary64 (parts x) (.zero .positive) = parts x := by
    cases parts x with
    | zero s => cases s <;> rfl
    | notANumber | infinity | finite => rfl
  change Float.ofModel (Float.Model.pack (UnpackedFloat.sub Format.binary64 (parts x) (parts 0.0))) = x
  rw [show parts 0.0 = .zero .positive from rfl, difference, pack_parts]

end Doubles

end Tablature.Double
