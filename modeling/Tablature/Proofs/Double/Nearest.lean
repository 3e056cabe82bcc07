import Tablature.Json.Number
import Tablature.Proofs.Double.Amounts

namespace Tablature.Double

open Float.Model Float.Model.UnpackedFloat

/-- No natural number is nearer to `w`; of two that are equally near it is the even one. -/
structure Nearest (r : Nat) (w : ℚ) : Prop where
  lower : r - 1 / 2 ≤ w
  upper : w ≤ r + 1 / 2
  odd : r % 2 = 1 → r - 1 / 2 < w ∧ w < r + 1 / 2

theorem Nearest.inside {r : Nat} {w : ℚ} (lower : r - 1 / 2 < w) (upper : w < r + 1 / 2) : Nearest r w :=
  ⟨lower.le, upper.le, fun _ => ⟨lower, upper⟩⟩

theorem Nearest.le {r n : Nat} {w : ℚ} (first : Nearest r w) (second : Nearest n w) : r ≤ n := by
  by_contra more
  have between : (n : ℚ) + 1 ≤ r := by exact_mod_cast Nat.lt_of_not_le more
  have middle : w = n + 1 / 2 := le_antisymm second.upper (by linarith [first.lower])
  have next : r = n + 1 := by
    have close : (r : ℚ) ≤ (n + 1 : Nat) := by
      push_cast
      linarith [first.lower]
    exact Nat.le_antisymm (by exact_mod_cast close) (Nat.lt_of_not_le more)
  -- One of two neighbours is odd, and not nearest to what is between them.
  rcases Nat.mod_two_eq_zero_or_one n with even | odd
  · have strict := (first.odd (by omega)).1
    rw [next] at strict
    push_cast at strict
    linarith
  · linarith [(second.odd odd).2]

theorem Nearest.unique {r n : Nat} {w : ℚ} (first : Nearest r w) (second : Nearest n w) : r = n :=
  Nat.le_antisymm (first.le second) (second.le first)

/-- The number is rounded to the double with this mantissa and exponent. Below a power of two doubles are closer
to each other. -/
structure RoundsTo (m : Nat) (e : Int) (v : ℚ) : Prop where
  nearest : Nearest m (v / 2 ^ e)
  narrow : m = 2 ^ 52 → e ≠ -1074 → m - 1 / 4 ≤ v / 2 ^ e

section Shifting

/-- Where the number is, as the mantissa and its two bits tell it. -/
inductive Describes : ExtendedMantissa → ℚ → Prop
  | exact (m : Nat) : Describes ⟨m, false, false⟩ m
  | below {m : Nat} {w : ℚ} (floor : m < w) (half : w < m + 1 / 2) : Describes ⟨m, false, true⟩ w
  | middle (m : Nat) : Describes ⟨m, true, false⟩ (m + 1 / 2)
  | above {m : Nat} {w : ℚ} (half : m + 1 / 2 < w) (ceiling : w < m + 1) : Describes ⟨m, true, true⟩ w

variable {em : ExtendedMantissa} {w : ℚ}

theorem shiftRightOne_even (q : Nat) (half more : Bool) :
    ExtendedMantissa.shiftRightOne ⟨2 * q, half, more⟩ = ⟨q, false, half || more⟩ := by
  simp only [ExtendedMantissa.shiftRightOne, Nat.mul_mod_right, Nat.mul_div_cancel_left q (by decide : 0 < 2)]
  rfl

theorem shiftRightOne_odd (q : Nat) (half more : Bool) :
    ExtendedMantissa.shiftRightOne ⟨2 * q + 1, half, more⟩ = ⟨q, true, half || more⟩ := by
  have bit : (2 * q + 1) % 2 = 1 := by omega
  have rest : (2 * q + 1) / 2 = q := by omega
  simp only [ExtendedMantissa.shiftRightOne, bit, rest]
  rfl

theorem Describes.shiftRightOne (describes : Describes em w) : Describes em.shiftRightOne (w / 2) := by
  obtain ⟨m, half, more⟩ := em
  rcases Nat.even_or_odd' m with ⟨q, rfl | rfl⟩
  · rw [shiftRightOne_even]
    cases describes with
    | exact =>
      have same : ((2 * q : Nat) : ℚ) / 2 = q := by
        push_cast
        ring
      rw [same]
      exact .exact q
    | below floor half =>
      push_cast at floor half
      exact .below (by linarith) (by linarith)
    | middle =>
      push_cast
      exact .below (by linarith) (by linarith)
    | above half ceiling =>
      push_cast at half ceiling
      exact .below (by linarith) (by linarith)
  · rw [shiftRightOne_odd]
    cases describes with
    | exact =>
      have same : ((2 * q + 1 : Nat) : ℚ) / 2 = q + 1 / 2 := by
        push_cast
        ring
      rw [same]
      exact .middle q
    | below floor half =>
      push_cast at floor half
      exact .above (by linarith) (by linarith)
    | middle =>
      push_cast
      exact .above (by linarith) (by linarith)
    | above half ceiling =>
      push_cast at half ceiling
      exact .above (by linarith) (by linarith)

theorem Describes.shiftRight (describes : Describes em w) (n : Nat) : Describes (em >>> n) (w / 2 ^ n) := by
  induction n with
  | zero =>
    rw [pow_zero, div_one]
    exact describes
  | succ n ih =>
    rw [pow_succ, ← div_div]
    exact ih.shiftRightOne

theorem describes_fraction (n : Nat) {num den : Nat} (less : num < den) :
    Describes (.ofMantissaAndAccuracy n (accuracyOfFraction num den)) (n + num / den) := by
  have positive : (0 : ℚ) < den := by exact_mod_cast Nat.zero_lt_of_lt less
  have fraction : (num : ℚ) / den < 1 := (div_lt_one positive).mpr (by exact_mod_cast less)
  unfold accuracyOfFraction
  split
  · next none =>
    rw [none, Nat.cast_zero, zero_div, add_zero]
    exact .exact n
  · next some =>
    have present : (0 : ℚ) < num / den := div_pos (by exact_mod_cast Nat.pos_of_ne_zero some) positive
    rcases Nat.lt_trichotomy (2 * num) den with short | same | long
    · have half : (num : ℚ) / den < 1 / 2 := by
        rw [div_lt_iff₀ positive]
        have cast : (2 * num : ℚ) < den := by exact_mod_cast short
        linarith
      rw [Nat.compare_eq_lt.mpr short]
      exact .below (by linarith) (by linarith)
    · have half : (num : ℚ) / den = 1 / 2 := by
        rw [div_eq_iff positive.ne', ← same]
        push_cast
        ring
      rw [Nat.compare_eq_eq.mpr same, half]
      exact .middle n
    · have half : 1 / 2 < (num : ℚ) / den := by
        rw [lt_div_iff₀ positive]
        have cast : (den : ℚ) < 2 * num := by exact_mod_cast long
        linarith
      rw [Nat.compare_eq_gt.mpr long]
      exact .above (by linarith) (by linarith)

theorem Describes.floor (describes : Describes em w) : em.mantissa ≤ w := by
  cases describes <;> linarith

theorem Describes.ceiling (describes : Describes em w) : w < em.mantissa + 1 := by
  cases describes <;> linarith

/-- Rounding takes the nearest mantissa. -/
theorem Describes.rounded (describes : Describes em w) : Nearest em.roundedMantissa w := by
  cases describes with
  | exact m =>
    change Nearest m m
    exact .inside (by linarith) (by linarith)
  | @below m w floor half =>
    change Nearest m w
    exact .inside (by linarith) (by linarith)
  | middle m =>
    change Nearest (m + m % 2) _
    rcases Nat.mod_two_eq_zero_or_one m with even | odd
    · rw [even]
      exact ⟨by push_cast; linarith, le_refl _, fun odd => by omega⟩
    · rw [odd]
      exact ⟨by push_cast; linarith, by push_cast; linarith, fun odd => by omega⟩
  | @above m w half ceiling =>
    change Nearest (m + 1) w
    exact .inside (by push_cast; linarith) (by push_cast; linarith)

end Shifting

section Rounding

variable {m n : Nat} {e f : Int} {v : ℚ} {accuracy : Accuracy}

theorem mantissa_start (n : Nat) (accuracy : Accuracy) :
    (ExtendedMantissa.ofMantissaAndAccuracy n accuracy).mantissa = n := by
  unfold ExtendedMantissa.ofMantissaAndAccuracy
  split <;> rfl

theorem kept_nearest (below : f ≤ precision n f)
    (describes : Describes (.ofMantissaAndAccuracy n accuracy) (v / 2 ^ f)) :
    Nearest (kept n f accuracy) (v / 2 ^ precision n f) := by
  have shifted := (describes.shiftRight (precision n f - f).toNat).rounded
  have place : v / 2 ^ f / 2 ^ (precision n f - f).toNat = v / 2 ^ precision n f := by
    rw [two_zpow_split below, div_div, mul_comm]
    push_cast
    rfl
  rw [place] at shifted
  exact shifted

/-- How large a number is that is rounded at this exponent. -/
theorem precision_bounds (below : f ≤ precision n f)
    (describes : Describes (.ofMantissaAndAccuracy n accuracy) (v / 2 ^ f)) :
    v < 2 ^ (precision n f + 53) ∧ (precision n f ≠ -1074 → 2 ^ (precision n f + 52) ≤ v) := by
  have unit : (0 : ℚ) < 2 ^ f := by positivity
  have floor := describes.floor
  have ceiling := describes.ceiling
  rw [mantissa_start, le_div_iff₀ unit] at floor
  rw [mantissa_start, div_lt_iff₀ unit] at ceiling
  constructor
  · have bits : ((n + 1 : Nat) : ℚ) ≤ 2 ^ ((n.log2 + 1 : Nat) : Int) := by
      rw [zpow_natCast]
      exact_mod_cast Nat.lt_log2_self (n := n)
    have top : n.log2 + f ≤ precision n f + 52 := by
      unfold precision
      omega
    calc v < (n + 1 : Nat) * 2 ^ f := by
          push_cast
          exact ceiling
      _ ≤ 2 ^ ((n.log2 + 1 : Nat) : Int) * 2 ^ f := by gcongr
      _ = 2 ^ ((n.log2 + 1 : Nat) + f : Int) := (zpow_add₀ two_ne_zero _ _).symm
      _ ≤ 2 ^ (precision n f + 53) := zpow_le_zpow_right₀ (by norm_num) (by omega)
  · intro normal
    have place : precision n f = n.log2 + f - 52 := by
      unfold precision at normal ⊢
      omega
    have present : n ≠ 0 := by
      rintro rfl
      rw [place, Nat.log2_zero] at below
      omega
    have bits : (2 : ℚ) ^ (n.log2 : Int) ≤ n := by
      rw [zpow_natCast]
      exact_mod_cast Nat.log2_self_le present
    calc (2 : ℚ) ^ (precision n f + 52) = 2 ^ (n.log2 : Int) * 2 ^ f := by
          rw [← zpow_add₀ two_ne_zero]
          congr 1
          omega
      _ ≤ n * 2 ^ f := by gcongr
      _ ≤ v := floor

theorem RoundsTo.bounds (rounds : RoundsTo m e v) : (m - 1 / 2) * 2 ^ e ≤ v ∧ v ≤ (m + 1 / 2) * 2 ^ e := by
  have unit : (0 : ℚ) < 2 ^ e := by positivity
  exact ⟨(le_div_iff₀ unit).mp rounds.nearest.lower, (div_le_iff₀ unit).mp rounds.nearest.upper⟩

/-- A number is rounded at the exponent of the double that it is rounded to, or below a power of two one lower. -/
theorem RoundsTo.place (rounds : RoundsTo m e v) (fits : Fits m e) (below : f ≤ precision n f)
    (describes : Describes (.ofMantissaAndAccuracy n accuracy) (v / 2 ^ f)) :
    precision n f = e ∨ precision n f = e - 1 ∧ m = 2 ^ 52 ∧ e ≠ -1074 := by
  obtain ⟨short, low, full⟩ := fits
  obtain ⟨small, large⟩ := precision_bounds below describes
  obtain ⟨lower, upper⟩ := rounds.bounds
  have least : -1074 ≤ precision n f := Int.le_max_right _ _
  have unit : (0 : ℚ) < 2 ^ e := by positivity
  have power (k : Nat) : (2 : ℚ) ^ (e + k) = 2 ^ k * 2 ^ e := by
    rw [zpow_add₀ two_ne_zero, zpow_natCast, mul_comm]
  have notAbove : precision n f ≤ e := by
    by_contra above
    have bits : (m : ℚ) + 1 ≤ 2 ^ 53 := by exact_mod_cast short
    have extent : (2 : ℚ) ^ (e + 53) ≤ 2 ^ (precision n f + 52) := zpow_le_zpow_right₀ (by norm_num) (by omega)
    have beyond := (extent.trans (large (by omega))).trans upper
    rw [show e + 53 = e + (53 : Nat) from rfl, power] at beyond
    have more := le_of_mul_le_mul_right beyond unit
    linarith
  rcases eq_or_lt_of_le notAbove with same | less
  · exact Or.inl same
  · have normal : e ≠ -1074 := by omega
    have many : (2 : ℚ) ^ 52 ≤ m := by exact_mod_cast full normal
    have least : m = 2 ^ 52 := by
      by_contra other
      have next : (2 : ℚ) ^ 52 + 1 ≤ m := by exact_mod_cast Nat.lt_of_le_of_ne (full normal) (Ne.symm other)
      have extent : (2 : ℚ) ^ (precision n f + 53) ≤ 2 ^ (e + 52) := zpow_le_zpow_right₀ (by norm_num) (by omega)
      have inside := lower.trans_lt (small.trans_le extent)
      rw [show e + 52 = e + (52 : Nat) from rfl, power] at inside
      have fewer := lt_of_mul_lt_mul_right inside unit.le
      linarith
    refine Or.inr ⟨?_, least, normal⟩
    by_contra other
    have extent : (2 : ℚ) ^ (precision n f + 53) ≤ 2 ^ (e + 51) := zpow_le_zpow_right₀ (by norm_num) (by omega)
    have inside := lower.trans_lt (small.trans_le extent)
    rw [show e + 51 = e + (51 : Nat) from rfl, power] at inside
    have fewer := lt_of_mul_lt_mul_right inside unit.le
    linarith

/-- What is rounded to a double is rounded to it, however it is written. -/
theorem roundWithAccuracy_nearest (s : Sign) (positive : 0 < m) (rounds : RoundsTo m e v) (fits : Fits m e)
    (below : f ≤ precision n f) (describes : Describes (.ofMantissaAndAccuracy n accuracy) (v / 2 ^ f)) :
    roundWithAccuracy Format.binary64 s n f accuracy = .finite s m e positive := by
  have nearest := kept_nearest below describes
  rw [roundWithAccuracy_eq accuracy s below]
  rcases rounds.place fits below describes with same | ⟨lower, power, normal⟩
  · rw [same] at nearest
    rw [same, nearest.unique rounds.nearest, carried, dif_neg positive.ne', if_pos fits.short]
  · have whole : Nearest (2 ^ 53) (v / 2 ^ precision n f) := by
      have unit : (0 : ℚ) < 2 ^ precision n f := by positivity
      have close := rounds.narrow power normal
      have small := (precision_bounds below describes).1
      rw [zpow_add₀ two_ne_zero, mul_comm, ← div_lt_iff₀ unit] at small
      have doubled : v / 2 ^ precision n f = 2 * (v / 2 ^ e) := by
        rw [lower, zpow_sub_one₀ two_ne_zero]
        field_simp
      rw [power] at close
      refine ⟨?_, ?_, fun odd => absurd odd (by decide)⟩
      · rw [doubled]
        push_cast at close ⊢
        linarith
      · refine small.le.trans ?_
        norm_num
    rw [nearest.unique whole, lower, carried, dif_neg (by decide), if_neg (by decide)]
    simp only [power, Int.sub_add_cancel]

end Rounding

section Arithmetic

variable {x y : Float} {v w : ℚ} {m : Nat} {e : Int}

theorem RoundsTo.positive (rounds : RoundsTo m e v) (positive : 0 < m) : 0 < v := by
  have least : (1 : ℚ) ≤ m := by exact_mod_cast positive
  have unit : (0 : ℚ) < 2 ^ e := by positivity
  exact (mul_pos (by linarith) unit).trans_le rounds.bounds.1

/-- A product has all the bits that a double keeps. -/
theorem product_bits {n n' : Nat} {f f' : Int} (some : 0 < n) (some' : 0 < n') (fits : Fits n f) (fits' : Fits n' f') :
    f + f' ≤ precision (n * n') (f + f') := by
  unfold precision
  by_cases least : f = -1074 ∧ f' = -1074
  · omega
  · have many : 2 ^ 52 ≤ n * n' := by
      rcases Classical.em (f = -1074) with atLeast | normal
      · have full := fits'.full fun atLeast' => least ⟨atLeast, atLeast'⟩
        exact full.trans (Nat.le_mul_of_pos_left n' some)
      · exact (fits.full normal).trans (Nat.le_mul_of_pos_right n some')
    have bits := (Nat.le_log2 (by omega)).mpr many
    omega

/-- The product of two doubles is the double that the product of their numbers is rounded to. -/
theorem mul_nearest (first : Amounts (parts x) v) (second : Amounts (parts y) w) (rounds : RoundsTo m e (v * w))
    (positive : 0 < m) (fits : Fits m e) (high : e ≤ 971) :
    parts (x * y) = .finite .positive m e positive := by
  have parted : parts (x * y) = UnpackedFloat.unpack Format.binary64
      (UnpackedFloat.pack Format.binary64 (UnpackedFloat.mul Format.binary64 (parts x) (parts y))) := rfl
  have doubleX := isDouble_parts x
  have doubleY := isDouble_parts y
  have present := rounds.positive positive
  rw [parted]
  generalize parts x = a at first doubleX
  generalize parts y = b at second doubleY
  cases first with
  | zero => exact absurd present (by rw [zero_mul]; exact lt_irrefl 0)
  | @finite n f some =>
    cases second with
    | zero => exact absurd present (by rw [mul_zero]; exact lt_irrefl 0)
    | @finite n' f' some' =>
      have product : UnpackedFloat.mul Format.binary64 (.finite .positive n f some) (.finite .positive n' f' some') =
          roundWithAccuracy Format.binary64 .positive (n * n') (f + f') .exact := rfl
      have exactly : (n : ℚ) * 2 ^ f * (n' * 2 ^ f') / 2 ^ (f + f') = (n * n' : Nat) := by
        rw [zpow_add₀ two_ne_zero]
        push_cast
        field_simp
      have describes : Describes (.ofMantissaAndAccuracy (n * n') .exact)
          ((n : ℚ) * 2 ^ f * (n' * 2 ^ f') / 2 ^ (f + f')) := by
        rw [exactly]
        exact .exact (n * n')
      have below : f + f' ≤ precision (n * n') (f + f') := product_bits some some' doubleX.fits.1 doubleY.fits.1
      rw [product, roundWithAccuracy_nearest .positive positive rounds fits below describes,
        unpack_pack_finite .positive positive fits high]

/-- The quotient of two doubles is the double that the quotient of their numbers is rounded to. -/
theorem div_nearest (first : Amounts (parts x) v) (second : Amounts (parts y) w) (rounds : RoundsTo m e (v / w))
    (positive : 0 < m) (fits : Fits m e) (high : e ≤ 971) :
    parts (x / y) = .finite .positive m e positive := by
  have parted : parts (x / y) = UnpackedFloat.unpack Format.binary64
      (UnpackedFloat.pack Format.binary64 (UnpackedFloat.div Format.binary64 (parts x) (parts y))) := rfl
  have present := rounds.positive positive
  rw [parted]
  generalize parts x = a at first
  generalize parts y = b at second
  cases first with
  | zero => exact absurd present (by rw [zero_div]; exact lt_irrefl 0)
  | @finite n f some =>
    cases second with
    | zero => exact absurd present (by rw [div_zero]; exact lt_irrefl 0)
    | @finite n' f' some' =>
      obtain ⟨scaled, t, quotient, below, exactly⟩ := div_developed some some'
      have divisor : (0 : ℚ) < n' := by exact_mod_cast some'
      have describes : Describes (.ofMantissaAndAccuracy (scaled / n') (accuracyOfFraction (scaled % n') n'))
          ((n : ℚ) * 2 ^ f / (n' * 2 ^ f') / 2 ^ t) := by
        have whole : (scaled : ℚ) / n' = (scaled / n' : Nat) + (scaled % n' : Nat) / n' := by
          have parted : (scaled : ℚ) = n' * (scaled / n' : Nat) + (scaled % n' : Nat) := by
            exact_mod_cast (Nat.div_add_mod scaled n').symm
          field_simp
          exact parted
        rw [exactly, mul_div_cancel_right₀ _ (by positivity), whole]
        exact describes_fraction _ (Nat.mod_lt _ some')
      rw [quotient, roundWithAccuracy_nearest .positive positive rounds fits below describes,
        unpack_pack_finite .positive positive fits high]

end Arithmetic

section Intervals

variable {m : Nat} {e : Int} {a b c v : ℚ}

/-- What lies between two numbers that are rounded to a double is rounded to it too. -/
theorem RoundsTo.between (first : RoundsTo m e a) (last : RoundsTo m e b) (lower : a ≤ c) (upper : c ≤ b) :
    RoundsTo m e c := by
  have unit : (0 : ℚ) ≤ 2 ^ e := by positivity
  have below := div_le_div_of_nonneg_right lower unit
  have above := div_le_div_of_nonneg_right upper unit
  refine ⟨⟨first.nearest.lower.trans below, above.trans last.nearest.upper, fun odd => ?_⟩,
    fun power normal => (first.narrow power normal).trans below⟩
  exact ⟨(first.nearest.odd odd).1.trans_le below, above.trans_lt (last.nearest.odd odd).2⟩

/-- Whatever is less than a quarter of the last place below a double is rounded to it. -/
theorem roundsTo_below (lower : (m - 1 / 4) * 2 ^ e ≤ v) (upper : v ≤ m * 2 ^ e) : RoundsTo m e v := by
  have unit : (0 : ℚ) < 2 ^ e := by positivity
  have floor := (le_div_iff₀ unit).mpr lower
  have ceiling := (div_le_iff₀ unit).mpr upper
  exact ⟨.inside (by linarith) (by linarith), fun _ _ => floor⟩

/-- How far down numbers are rounded to a double, in last places. -/
def lowerHalf (m : Nat) (e : Int) : ℚ :=
  if m = 2 ^ 52 ∧ e ≠ -1074 then 1 / 4 else 1 / 2

theorem lowerHalf_le (m : Nat) (e : Int) : lowerHalf m e ≤ 1 / 2 := by
  unfold lowerHalf
  split <;> norm_num

theorem lowerHalf_odd (odd : m % 2 = 1) : lowerHalf m e = 1 / 2 := by
  refine if_neg ?_
  rintro ⟨rfl, _⟩
  cases odd

theorem roundsTo_iff : RoundsTo m e v ↔
    if m % 2 = 0 then (m - lowerHalf m e) * 2 ^ e ≤ v ∧ v ≤ (m + 1 / 2) * 2 ^ e
    else (m - lowerHalf m e) * 2 ^ e < v ∧ v < (m + 1 / 2) * 2 ^ e := by
  have unit : (0 : ℚ) < 2 ^ e := by positivity
  rw [← le_div_iff₀ unit, ← lt_div_iff₀ unit, ← div_le_iff₀ unit, ← div_lt_iff₀ unit]
  by_cases even : m % 2 = 0
  · rw [if_pos even]
    constructor
    · rintro ⟨nearest, narrow⟩
      refine ⟨?_, nearest.upper⟩
      unfold lowerHalf
      split
      · next power => exact narrow power.1 power.2
      · exact nearest.lower
    · rintro ⟨lower, upper⟩
      refine ⟨⟨by linarith [lowerHalf_le m e], upper, fun odd => by omega⟩, fun power normal => ?_⟩
      rwa [lowerHalf, if_pos ⟨power, normal⟩] at lower
  · have odd : m % 2 = 1 := by omega
    rw [if_neg even, lowerHalf_odd odd]
    exact ⟨fun rounds => rounds.nearest.odd odd, fun ⟨lower, upper⟩ =>
      ⟨.inside lower upper, fun power => by rw [power] at odd; cases odd⟩⟩

theorem roundsTo_self (m : Nat) (e : Int) : RoundsTo m e (m * 2 ^ e) := by
  have unit : (0 : ℚ) < 2 ^ e := by positivity
  exact roundsTo_below (by linarith) (le_refl _)

end Intervals

section PowersOfTen

theorem powerOfTen_eq : ∀ k ≤ 22, Json.powerOfTen k = Float.ofNat (10 ^ k) := by
  decide +kernel

/-- The first powers of ten are doubles. -/
theorem amounts_powerOfTen {k : Nat} (small : k ≤ 22) : Amounts (parts (Json.powerOfTen k)) (10 ^ k) := by
  have fives : 5 ^ k < 2 ^ 53 := (Nat.pow_le_pow_right (by decide) small).trans_lt (by decide)
  have split : 10 ^ k = 5 ^ k * 2 ^ k := Nat.mul_pow 5 2 k
  have value : (10 : ℚ) ^ k = (5 ^ k : Nat) * 2 ^ k := by exact_mod_cast split
  rw [powerOfTen_eq k small, value, split]
  exact amounts_ofNat_scaled fives (by omega)

end PowersOfTen

end Tablature.Double
