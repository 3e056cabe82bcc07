import Mathlib.Data.Int.Log
import Tablature.Proofs.Double.Nearest

namespace Tablature.Double

open Float.Model Float.Model.UnpackedFloat

variable {x y : Float} {v w : ℚ}

/-- What is rounded faithfully grows by the last place of a double at most. -/
theorem Faithful.near {rounded : ℚ} (faithful : Faithful rounded v) (least : 1 ≤ v) :
    rounded ≤ v * (1 + 1 / 2 ^ 52) := by
  have positive : 0 < v := by linarith
  obtain ⟨place, first⟩ : ∃ place, Int.log 2 v = place + 52 := ⟨Int.log 2 v - 52, by omega⟩
  have low := Int.zpow_log_le_self (b := 2) (by decide) positive
  have high := Int.lt_zpow_succ_log_self (b := 2) (by decide) v
  rw [first] at low high
  push_cast at low high
  have unit : (0 : ℚ) < 2 ^ place := by positivity
  have above : (2 : ℚ) ^ (0 : Int) < 2 ^ (place + 52 + 1) := by
    rw [zpow_zero]
    linarith
  have order := (zpow_lt_zpow_iff_right₀ (by norm_num : (1 : ℚ) < 2)).mp above
  have up (k : Nat) : (2 : ℚ) ^ (place + k) = 2 ^ k * 2 ^ place := by
    rw [zpow_add₀ two_ne_zero, zpow_natCast, mul_comm]
  rw [show place + 52 + 1 = place + (53 : Nat) by push_cast; ring, up] at high
  rw [show place + 52 = place + (52 : Nat) from rfl, up] at low
  have short : v / 2 ^ place ≤ (2 ^ 53 : Nat) := by
    rw [div_le_iff₀ unit]
    push_cast
    exact high.le
  have grid : OnGrid ((⌈v / 2 ^ place⌉₊ : ℚ) * 2 ^ place) :=
    ⟨⌈v / 2 ^ place⌉₊, place, Nat.ceil_le.mpr short, by omega, rfl⟩
  have ceiling := Nat.ceil_lt_add_one (a := v / 2 ^ place) (by positivity)
  calc rounded ≤ ⌈v / 2 ^ place⌉₊ * 2 ^ place := faithful.upper grid ((div_le_iff₀ unit).mp (Nat.le_ceil _))
    _ ≤ (v / 2 ^ place + 1) * 2 ^ place := by gcongr
    _ = v + 2 ^ place := by field_simp
    _ ≤ v * (1 + 1 / 2 ^ 52) := by linarith

/-- A product is rounded faithfully. -/
theorem mul_amounts (first : Amounts (parts x) v) (second : Amounts (parts y) w) (positive : 0 < v) (positive' : 0 < w)
    (small : InReach (v * w)) : ∃ product, Amounts (parts (x * y)) product ∧ Faithful product (v * w) := by
  have parted : parts (x * y) = UnpackedFloat.unpack Format.binary64
      (UnpackedFloat.pack Format.binary64 (UnpackedFloat.mul Format.binary64 (parts x) (parts y))) := rfl
  have doubleX := isDouble_parts x
  have doubleY := isDouble_parts y
  rw [parted]
  generalize parts x = a at first doubleX
  generalize parts y = b at second doubleY
  cases first with
  | zero => exact absurd positive (lt_irrefl 0)
  | @finite n f some =>
    cases second with
    | zero => exact absurd positive' (lt_irrefl 0)
    | @finite n' f' some' =>
      have product : UnpackedFloat.mul Format.binary64 (.finite .positive n f some) (.finite .positive n' f' some') =
          roundWithAccuracy Format.binary64 .positive (n * n') (f + f') .exact := rfl
      have exactly : (n : ℚ) * 2 ^ f * (n' * 2 ^ f') = (n * n' : Nat) * 2 ^ (f + f') := by
        rw [zpow_add₀ two_ne_zero]
        push_cast
        ring
      rw [exactly] at small ⊢
      rw [product]
      exact roundWithAccuracy_whole (product_bits some some' doubleX.fits.1 doubleY.fits.1) small

/-- A number with a power of ten is rounded faithfully when it is read. -/
theorem ofScientific_amounts {n k : Nat} (present : 0 < n) (slow : ¬(n < 2 ^ 53 ∧ k ≤ 22)) (small : k ≤ 2048)
    (reach : InReach (n * 10 ^ k)) :
    ∃ rounded, Amounts (parts (Float.ofScientific n false k)) rounded ∧ Faithful rounded (n * 10 ^ k) := by
  have model : Float.ofScientific n false k = .ofModel (Float.Model.ofScientific n k) := dif_neg slow
  have exactly : (n : ℚ) * 10 ^ k = (n * 2 ^ 53 * 10 ^ k : Nat) * 2 ^ (-53 : Int) := by
    rw [zpow_neg]
    push_cast
    field_simp
  rw [model]
  change ∃ rounded, Amounts (UnpackedFloat.unpack Format.binary64 (UnpackedFloat.pack Format.binary64
    (UnpackedFloat.ofScientific Format.binary64 n k))) rounded ∧ _
  rw [ofScientific_up present small]
  rw [exactly] at reach ⊢
  refine roundWithAccuracy_whole ?_ reach
  have many : 2 ^ 53 ≤ n * 2 ^ 53 * 10 ^ k := by
    rw [Nat.mul_right_comm]
    exact Nat.le_mul_of_pos_left _ (Nat.mul_pos present (Nat.pow_pos (by decide)))
  have bits := (Nat.le_log2 (by omega)).mpr many
  unfold precision
  omega

/-- The double is positive, and above this number by its last place at most. -/
def Close (x : Float) (v : ℚ) : Prop :=
  ∃ r, Amounts (parts x) r ∧ 0 < r ∧ r ≤ v * (1 + 1 / 2 ^ 52)

theorem close_of_amounts (amounts : Amounts (parts x) v) (positive : 0 < v) : Close x v :=
  ⟨v, amounts, positive, by linarith⟩

theorem close_of_faithful (least : 1 ≤ v) (rounded : ∃ r, Amounts (parts x) r ∧ Faithful r v) : Close x v := by
  obtain ⟨r, amounts, faithful⟩ := rounded
  have one : 1 ≤ r := faithful.lower (z := 1) ⟨1, 0, by decide, by decide, by norm_num⟩ least
  exact ⟨r, amounts, by linarith, faithful.near least⟩

theorem Close.mul_finite (first : Close x v) (second : Close y w) (small : InReach (v * w * (1 + 1 / 2 ^ 52) ^ 2)) :
    (x * y).isInf = false := by
  obtain ⟨r, amounts, positive, near⟩ := first
  obtain ⟨q, amounts', positive', near'⟩ := second
  have reach : InReach (r * q) := by
    refine LE.le.trans ?_ small
    calc r * q ≤ (v * (1 + 1 / 2 ^ 52)) * (w * (1 + 1 / 2 ^ 52)) :=
          mul_le_mul near near' positive'.le (positive.le.trans near)
      _ = v * w * (1 + 1 / 2 ^ 52) ^ 2 := by ring
  obtain ⟨product, rounded, _⟩ := mul_amounts amounts amounts' positive positive' reach
  change (parts (x * y)).isInf = false
  generalize parts (x * y) = f at rounded
  cases rounded <;> rfl

/-- Whole numbers of 64 bits are read closely. -/
theorem ofNat_close {n : Nat} (present : 0 < n) (few : n < 2 ^ 64) : Close (Float.ofNat n) n := by
  have least : (1 : ℚ) ≤ n := by exact_mod_cast present
  by_cases short : n < 2 ^ 53
  · exact close_of_amounts (amounts_ofNat short) (by linarith)
  · have bound : (n : ℚ) ≤ 2 ^ (64 : Int) := by exact_mod_cast few.le
    have rounded := ofScientific_amounts (k := 0) present (fun fast => short fast.1) (by decide)
      (by rw [pow_zero, mul_one]; exact inReach_of_le (by decide) bound)
    rw [pow_zero, mul_one] at rounded
    exact close_of_faithful least rounded

/-- The powers of ten that are not too large for a double are read closely. -/
theorem powerOfTen_close {k : Nat} (small : k ≤ 308) : Close (Json.powerOfTen k) (10 ^ k) := by
  have least : (1 : ℚ) ≤ 10 ^ k := one_le_pow₀ (by norm_num)
  by_cases short : k ≤ 22
  · exact close_of_amounts (amounts_powerOfTen short) (by linarith)
  · have whole : 10 ^ 308 ≤ (2 ^ 53 - 1) * 2 ^ 971 := by decide +kernel
    have bound : InReach (10 ^ k) := by
      calc (10 : ℚ) ^ k ≤ 10 ^ 308 := pow_le_pow_right₀ (by norm_num) small
        _ ≤ ((2 ^ 53 - 1) * 2 ^ 971 : Nat) := by exact_mod_cast whole
        _ = (2 ^ 53 - 1 : Nat) * 2 ^ (971 : Int) := by
          rw [Nat.cast_mul, Nat.cast_pow]
          rfl
    have rounded := ofScientific_amounts (k := k) Nat.one_pos (fun fast => short fast.2) (by omega)
      (by rw [Nat.cast_one, one_mul]; exact bound)
    rw [Nat.cast_one, one_mul] at rounded
    exact close_of_faithful least rounded

end Tablature.Double
