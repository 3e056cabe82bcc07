import Tablature.Proofs.Double.Order

namespace Tablature.Double

open Float.Model Float.Model.UnpackedFloat

/-- The exponent at which a number is rounded: where 53 bits are left of it, but never below the least. -/
def precision (m : Nat) (e : Int) : Int :=
  max (m.log2 + e - 52) (-1074)

theorem targetExponent_eq (m : Nat) (e : Int) :
    Format.binary64.targetExponent (totalExponent m e) = precision m e := by
  change max ((m.log2 + 1 + e : Int) - 53) (-1074) = _
  rw [precision]
  congr 1
  omega

theorem Fits.precision {m : Nat} {e : Int} (fits : Fits m e) : precision m e = e := by
  obtain ⟨short, low, full⟩ := fits
  by_cases least : e = -1074
  · subst least
    have bits : m.log2 ≤ 52 := by
      by_cases none : m = 0
      · rw [none]
        decide
      · exact Nat.le_of_lt_succ ((Nat.log2_lt none).mpr short)
    rw [Double.precision]
    omega
  · rw [Double.precision, log2_full (full least) short]
    omega

section Shifting

variable (em : ExtendedMantissa)

theorem mantissa_shiftRight (n : Nat) : (em >>> n).mantissa = em.mantissa / 2 ^ n := by
  induction n with
  | zero => exact (Nat.div_one _).symm
  | succ n ih =>
    change (em >>> n).mantissa / 2 = _
    rw [ih, Nat.div_div_eq_div_mul, Nat.pow_succ]

theorem roundedMantissa_between :
    em.mantissa ≤ em.roundedMantissa ∧ em.roundedMantissa ≤ em.mantissa + 1 := by
  obtain ⟨m, half, rest⟩ := em
  have odd : m % 2 ≤ 1 := Nat.le_of_lt_succ (Nat.mod_lt _ (by decide))
  cases half <;> cases rest <;>
    simp only [ExtendedMantissa.roundedMantissa, ExtendedMantissa.accuracy, Accuracy.roundToNearestEven] <;> omega

/-- Shifting out zeros is exact. -/
theorem shiftRight_exact (m n : Nat) :
    ExtendedMantissa.ofMantissaAndAccuracy (m * 2 ^ n) .exact >>> n = ⟨m, false, false⟩ := by
  induction n generalizing m with
  | zero =>
    rw [Nat.pow_zero, Nat.mul_one]
    rfl
  | succ n ih =>
    have earlier := ih (m * 2)
    rw [Nat.mul_assoc, ← Nat.pow_succ'] at earlier
    change (ExtendedMantissa.ofMantissaAndAccuracy _ _ >>> n).shiftRightOne = _
    rw [earlier]
    simp only [ExtendedMantissa.shiftRightOne, Nat.mul_mod_left, Nat.mul_div_cancel _ (by decide : 0 < 2)]
    rfl

end Shifting

/-- A rounded mantissa in its place; one that became too long is `2 ^ 53`. -/
def carried (s : Sign) (r : Nat) (e : Int) : UnpackedFloat :=
  if none : r = 0 then .zero s
  else if r < 2 ^ 53 then .finite s r e (Nat.pos_of_ne_zero none)
  else .finite s (2 ^ 52) (e + 1) (by decide)

section Rounding

variable {m : Nat} {e : Int} (accuracy : Accuracy)

/-- The mantissa that rounding leaves, before it is put in its place. -/
def kept (m : Nat) (e : Int) (accuracy : Accuracy) : Nat :=
  (ExtendedMantissa.ofMantissaAndAccuracy m accuracy >>> (precision m e - e).toNat).roundedMantissa

/-- A mantissa is cut to 53 bits and then goes up by one at most. -/
theorem kept_between :
    m / 2 ^ (precision m e - e).toNat ≤ kept m e accuracy ∧
      kept m e accuracy ≤ m / 2 ^ (precision m e - e).toNat + 1 := by
  have between := roundedMantissa_between
    (ExtendedMantissa.ofMantissaAndAccuracy m accuracy >>> (precision m e - e).toNat)
  have start : (ExtendedMantissa.ofMantissaAndAccuracy m accuracy).mantissa = m := by
    unfold ExtendedMantissa.ofMantissaAndAccuracy
    split <;> rfl
  rw [mantissa_shiftRight, start] at between
  exact between

theorem cut_short (m : Nat) (e : Int) : m / 2 ^ (precision m e - e).toNat < 2 ^ 53 := by
  apply Nat.div_lt_of_lt_mul
  rw [← Nat.pow_add]
  by_cases none : m = 0
  · rw [none]
    exact Nat.two_pow_pos _
  · apply (Nat.log2_lt none).mp
    unfold precision
    omega

theorem cut_full (below : e ≤ precision m e) (normal : precision m e ≠ -1074) :
    2 ^ 52 ≤ m / 2 ^ (precision m e - e).toNat := by
  have top : precision m e = m.log2 + e - 52 := by
    unfold precision at normal ⊢
    omega
  have present : m ≠ 0 := by
    rintro rfl
    rw [top, Nat.log2_zero] at below
    omega
  apply (Nat.le_div_iff_mul_le (Nat.two_pow_pos _)).mpr
  rw [← Nat.pow_add, show 52 + (precision m e - e).toNat = m.log2 by omega]
  exact Nat.log2_self_le present

theorem kept_full (below : e ≤ precision m e) (normal : precision m e ≠ -1074) : 2 ^ 52 ≤ kept m e accuracy :=
  Nat.le_trans (cut_full below normal) (kept_between accuracy).1

/-- The second shift, after rounding: only a mantissa that became too long moves. -/
theorem carried_eq (s : Sign) {r : Nat} (least : -1074 ≤ e) (most : r ≤ 2 ^ 53)
    (full : e ≠ -1074 → 2 ^ 52 ≤ r) :
    (let shift := (precision r e - e).toNat
     let mantissa := (ExtendedMantissa.ofMantissaAndAccuracy r .exact >>> shift).mantissa
     if none : mantissa = 0 then UnpackedFloat.zero s
     else .finite s mantissa (e + shift) (Nat.pos_of_ne_zero none)) = carried s r e := by
  dsimp only
  by_cases short : r < 2 ^ 53
  · have fits : Fits r e := ⟨short, least, full⟩
    have still : (precision r e - e).toNat = 0 := by rw [fits.precision]; omega
    simp only [still, carried, if_pos short, Int.cast_ofNat_Int, Int.add_zero]
    rfl
  · have long : r = 2 ^ 53 := by omega
    subst long
    have one : (precision (2 ^ 53) e - e).toNat = 1 := by
      rw [precision, Nat.log2_two_pow]
      omega
    simp only [one, carried]
    rfl

/-- How a mantissa is rounded whose exponent is not above the one at which it is. -/
theorem roundWithAccuracy_eq (s : Sign) (below : e ≤ precision m e) :
    roundWithAccuracy Format.binary64 s m e accuracy = carried s (kept m e accuracy) (precision m e) := by
  have most : kept m e accuracy ≤ 2 ^ 53 := Nat.le_trans (kept_between accuracy).2 (cut_short m e)
  have least : -1074 ≤ precision m e := Int.le_max_right _ _
  have place : e + ((precision m e - e).toNat : Int) = precision m e := by omega
  rw [← carried_eq s least most (kept_full accuracy below)]
  simp only [roundWithAccuracy, shiftToTargetExponent, shiftToExponent, targetExponent_eq, place]
  rfl

theorem log2_mul_two_pow (positive : 0 < m) (k : Nat) : (m * 2 ^ k).log2 = m.log2 + k := by
  have none : m ≠ 0 := by omega
  have low := Nat.mul_le_mul_right (2 ^ k) (Nat.log2_self_le none)
  have high := (Nat.mul_lt_mul_right (Nat.two_pow_pos k)).mpr (Nat.lt_log2_self (n := m))
  rw [← Nat.pow_add] at low high
  refine (Nat.log2_eq_iff (Nat.mul_ne_zero none (Nat.two_pow_pos k).ne')).mpr ⟨low, ?_⟩
  rwa [show m.log2 + k + 1 = m.log2 + 1 + k by omega]

theorem precision_mul (positive : 0 < m) (k : Nat) : precision (m * 2 ^ k) (e - k) = precision m e := by
  rw [precision, log2_mul_two_pow positive, precision]
  congr 1
  omega

/-- A number that fits is not changed by rounding, however it is written. -/
theorem roundWithAccuracy_exact (s : Sign) (positive : 0 < m) (fits : Fits m e) (k : Nat) :
    roundWithAccuracy Format.binary64 s (m * 2 ^ k) (e - k) .exact = .finite s m e positive := by
  have at' : precision (m * 2 ^ k) (e - k) = e := by rw [precision_mul positive, fits.precision]
  have same : kept (m * 2 ^ k) (e - k) .exact = m := by
    rw [kept, at', show (e - (e - k)).toNat = k by omega, shiftRight_exact]
    rfl
  rw [roundWithAccuracy_eq .exact s (by omega), same, at', carried, dif_neg (by omega), if_pos fits.short]

/-- What rounding gives is not below a double. -/
structure Above (f g : UnpackedFloat) : Prop where
  rounded : Rounded g
  number : clip g ≠ .notANumber
  above : rank f ≤ rank (clip g)

theorem above_finite {r : Nat} {p : Int} {positive : 0 < m} {positive' : 0 < r}
    (double : IsDouble (.finite .positive m e positive)) (fits : Fits r p)
    (above : (e + 1074) * 2 ^ 53 + m ≤ (p + 1074) * 2 ^ 53 + r) :
    Above (.finite .positive m e positive) (.finite .positive r p positive') := by
  have extent := rank_positive double
  have infinite : rank (.infinity .positive) = 2 ^ 64 := rfl
  by_cases large : 971 < p
  · have clipped : clip (.finite .positive r p positive') = .infinity .positive := if_pos large
    exact ⟨fits, by rw [clipped]; exact nofun, by rw [clipped]; omega⟩
  · have same : clip (.finite .positive r p positive') = .finite .positive r p positive' := if_neg large
    exact ⟨fits, by rw [same]; exact nofun, by rw [same]; exact above⟩

theorem above_carried {r : Nat} {p : Int} {positive : 0 < m} (double : IsDouble (.finite .positive m e positive))
    (full : p ≠ -1074 → 2 ^ 52 ≤ r) (above : e < p ∨ e = p ∧ m ≤ r) :
    Above (.finite .positive m e positive) (carried .positive r p) := by
  obtain ⟨⟨short, low, _⟩, high⟩ := double.fits
  rw [carried, dif_neg (by omega)]
  by_cases fits : r < 2 ^ 53
  · rw [if_pos fits]
    exact above_finite double ⟨fits, by omega, full⟩ (by omega)
  · rw [if_neg fits]
    exact above_finite double ⟨by omega, by omega, fun _ => Nat.le_refl _⟩ (by omega)

theorem precision_mono {n : Nat} (more : m ≤ n) : precision m e ≤ precision n e := by
  have bits : m.log2 ≤ n.log2 := by
    rw [Nat.log2_eq_log_two, Nat.log2_eq_log_two]
    exact Nat.log_mono_right more
  unfold precision
  omega

/-- A number that is not below a double is not rounded below it. -/
theorem round_above {n : Nat} {p : Int} {positive : 0 < m} (double : IsDouble (.finite .positive m e positive))
    (lower : p ≤ e) (above : m * 2 ^ (e - p).toNat ≤ n) :
    Above (.finite .positive m e positive) (UnpackedFloat.round Format.binary64 .positive n p) := by
  have fits := double.fits.1
  have same : precision (m * 2 ^ (e - p).toNat) p = e := by
    have moved := precision_mul (e := e) positive (e - p).toNat
    rw [show e - ((e - p).toNat : Int) = p by omega] at moved
    rw [moved, fits.precision]
  have later : e ≤ precision n p := by
    rw [← same]
    exact precision_mono above
  have rounds : UnpackedFloat.round Format.binary64 .positive n p =
      carried .positive (kept n p .exact) (precision n p) := by
    rw [← roundWithAccuracy_eq .exact .positive (by omega), UnpackedFloat.round, targetExponent_eq, decreaseExponent,
      show (p - precision n p).toNat = 0 by omega]
    simp only [Nat.shiftLeft_zero, Int.cast_ofNat_Int, Int.sub_zero]
  rw [rounds]
  refine above_carried double (kept_full .exact (by omega)) ?_
  rcases Int.lt_or_eq_of_le later with further | atSame
  · exact Or.inl further
  · refine Or.inr ⟨atSame, Nat.le_trans ?_ (kept_between .exact).1⟩
    rw [← atSame]
    exact (Nat.le_div_iff_mul_le (Nat.two_pow_pos _)).mpr above

end Rounding

end Tablature.Double
