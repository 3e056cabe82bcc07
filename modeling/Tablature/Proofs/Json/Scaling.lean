import Tablature.Proofs.Double.Reach
import Tablature.Proofs.ShortestDecimal

namespace Tablature.Json

open Double

variable {m : Nat} {e : Int}

/-- Scaling down never leaves the range of doubles. -/
theorem scale_down (x : Float) {exponent : Int} (down : exponent < 0) : ∃ y, scale x exponent = some y := by
  fun_induction scale x exponent with
  | case1 => omega
  | case2 => omega
  | case3 => exact ⟨_, rfl⟩
  | case4 => exact ⟨_, rfl⟩
  | case5 => omega
  | case6 x exponent large nonzero negative ih => exact ih (by omega)

theorem scale_up {x : Float} {exponent : Int} (up : 0 ≤ exponent) (near : exponent ≤ 308)
    (small : (x * powerOfTen exponent.natAbs).isInf = false) :
    scale x exponent = some (x * powerOfTen exponent.natAbs) := by
  rw [scale, if_pos (by omega), if_pos up]
  dsimp only
  rw [small]
  rfl

section Short

open Float.Model Float.Model.UnpackedFloat

variable {digits : Nat} {exponent : Int}

/-- One product or quotient of doubles finds the double that a short decimal is rounded to. -/
theorem scale_short (positive : 0 < m) (fits : Fits m e) (high : e ≤ 971) (few : digits < 2 ^ 53)
    (near : exponent.natAbs ≤ 22) (rounds : RoundsTo m e (digits * 10 ^ exponent)) :
    ∃ x, scale (Float.ofNat digits) exponent = some x ∧ parts x = .finite .positive m e positive := by
  have significand := amounts_ofNat few
  have power := amounts_powerOfTen near
  rcases le_or_gt 0 exponent with up | down
  · have value : (10 : ℚ) ^ exponent = 10 ^ exponent.natAbs := by
      rw [← zpow_natCast, Int.natAbs_of_nonneg up]
    rw [value] at rounds
    have product := mul_nearest significand power rounds positive fits high
    exact ⟨_, scale_up up (by omega) (isInf_parts product), product⟩
  · have value : (10 : ℚ) ^ exponent = (10 ^ exponent.natAbs)⁻¹ := by
      rw [← zpow_natCast, ← zpow_neg, Int.ofNat_natAbs_of_nonpos (by omega), neg_neg]
    rw [value, ← div_eq_mul_inv] at rounds
    rw [scale, if_pos (by omega), if_neg (by omega)]
    exact ⟨_, rfl, div_nearest significand power rounds positive fits high⟩

end Short

/-- The digits of a double have an exponent that is one itself. -/
theorem shortest_reach (positive : 0 < m) (fits : Fits m e) (high : e ≤ 971) :
    (shortest .even m e).exponent ≤ 308 := by
  obtain ⟨rounds, some, _⟩ := shortest_rounds .even positive fits.short (e := e)
  have short := fits.short
  have bits : (m : ℚ) + 1 ≤ 2 ^ 53 := by exact_mod_cast short
  have one : (1 : ℚ) ≤ (shortest .even m e).digits := by exact_mod_cast some
  have whole : 2 ^ 1024 < 10 ^ 309 := by decide +kernel
  have below : (10 : ℚ) ^ (shortest .even m e).exponent < 10 ^ (309 : Int) := by
    calc (10 : ℚ) ^ (shortest .even m e).exponent ≤ (shortest .even m e).value :=
          le_mul_of_one_le_left (by positivity) one
      _ ≤ (m + 1 / 2) * 2 ^ e := rounds.bounds.2
      _ ≤ 2 ^ (53 : Int) * 2 ^ (971 : Int) := by
          gcongr
          · norm_num
            linarith
          · norm_num
      _ = 2 ^ (1024 : Int) := (zpow_add₀ two_ne_zero _ _).symm
      _ = (2 ^ 1024 : Nat) := by
          rw [Nat.cast_pow]
          rfl
      _ < (10 ^ 309 : Nat) := Nat.cast_lt.mpr whole
      _ = 10 ^ (309 : Int) := by
          rw [Nat.cast_pow]
          rfl
  have order := (zpow_lt_zpow_iff_right₀ (by norm_num : (1 : ℚ) < 10)).mp below
  omega

/-- Below all but the largest doubles there is room for the error of two factors. -/
theorem inReach_room (short : m < 2 ^ 53) (high : e ≤ 971) (room : e = 971 → m + 7 ≤ 2 ^ 53) :
    InReach ((m + 1 / 2) * 2 ^ e * (1 + 1 / 2 ^ 52) ^ 2) := by
  unfold InReach
  rcases eq_or_ne e 971 with rfl | other
  · have less : (m : ℚ) + 7 ≤ 2 ^ 53 := by exact_mod_cast room rfl
    rw [mul_right_comm]
    refine mul_le_mul_of_nonneg_right ?_ (by positivity)
    norm_num
    linarith
  · have less : (m : ℚ) + 1 ≤ 2 ^ 53 := by exact_mod_cast short
    have last : (2 : ℚ) ^ e * 2 ≤ 2 ^ (971 : Int) := by
      rw [← zpow_add_one₀ two_ne_zero]
      exact zpow_le_zpow_right₀ (by norm_num) (by omega)
    have factor : (m + 1 / 2 : ℚ) * (1 + 1 / 2 ^ 52) ^ 2 ≤ (2 ^ 53 - 1 : Nat) * 2 := by
      norm_num
      linarith
    calc (m + 1 / 2 : ℚ) * 2 ^ e * (1 + 1 / 2 ^ 52) ^ 2 = (m + 1 / 2 : ℚ) * (1 + 1 / 2 ^ 52) ^ 2 * 2 ^ e :=
          mul_right_comm _ _ _
      _ ≤ (2 ^ 53 - 1 : Nat) * 2 * 2 ^ e := mul_le_mul_of_nonneg_right factor (by positivity)
      _ = (2 ^ 53 - 1 : Nat) * (2 ^ e * 2) := by rw [mul_assoc, mul_comm (2 : ℚ)]
      _ ≤ (2 ^ 53 - 1 : Nat) * 2 ^ (971 : Int) := mul_le_mul_of_nonneg_left last (Nat.cast_nonneg _)

theorem largest_finite : ∀ j < 6, (Float.ofNat (shortest .even (2 ^ 53 - 1 - j) 971).digits *
    powerOfTen (shortest .even (2 ^ 53 - 1 - j) 971).exponent.natAbs).isInf = false := by
  decide +kernel

/-- The shortest digits of a double are never read as a number that is too large. -/
theorem scale_shortest (positive : 0 < m) (fits : Fits m e) (high : e ≤ 971) :
    ∃ y, scale (Float.ofNat (shortest .even m e).digits) (shortest .even m e).exponent = some y := by
  rcases lt_or_ge (shortest .even m e).exponent 0 with down | up
  · exact scale_down _ down
  have near := shortest_reach positive fits high
  refine ⟨_, scale_up up near ?_⟩
  -- For the last few doubles the product is found, since the bound on its factors does not tell.
  by_cases top : e = 971 ∧ 2 ^ 53 < m + 7
  · obtain ⟨rfl, large⟩ := top
    have short := fits.short
    obtain ⟨j, rfl, less⟩ : ∃ j, m = 2 ^ 53 - 1 - j ∧ j < 6 := ⟨2 ^ 53 - 1 - m, by omega, by omega⟩
    exact largest_finite j less
  · obtain ⟨rounds, some, few, _⟩ := shortest_rounds .even positive fits.short (e := e)
    have value : (shortest .even m e).value =
        (shortest .even m e).digits * 10 ^ (shortest .even m e).exponent.natAbs := by
      rw [Decimal.value, ← zpow_natCast, Int.natAbs_of_nonneg up]
    have room : InReach ((m + 1 / 2) * 2 ^ e * (1 + 1 / 2 ^ 52) ^ 2) := inReach_room fits.short high (by omega)
    refine (ofNat_close some few).mul_finite (powerOfTen_close (by omega)) (LE.le.trans ?_ room)
    rw [← value]
    gcongr
    exact rounds.bounds.2

end Tablature.Json
