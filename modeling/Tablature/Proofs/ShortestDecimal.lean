import Tablature.Decimal.Shortest
import Tablature.Proofs.Double.Nearest

namespace Tablature

open Double

namespace Rounding

variable {m : Nat} {e : Int}

theorem den_pos (m : Nat) (e : Int) : 0 < (Rounding.of m e).den := by
  unfold Rounding.of
  dsimp only
  split
  · exact Nat.one_pos
  · exact Nat.two_pow_pos _

theorem scale_eq (e : Int) : ((if 2 ≤ e then Nat.pow 2 (e - 2).toNat else 1 : Nat) : ℚ) =
    (if 2 ≤ e then 1 else Nat.pow 2 (2 - e).toNat : Nat) * (2 ^ e / 4) := by
  have quarter : (2 : ℚ) ^ e / 4 = 2 ^ (e - 2) := by
    rw [zpow_sub₀ two_ne_zero]
    norm_num
  have power (k : Nat) : ((Nat.pow 2 k : Nat) : ℚ) = 2 ^ (k : Int) := by
    rw [zpow_natCast]
    exact Nat.cast_pow 2 k
  rw [quarter]
  split
  · next large => rw [power, Nat.cast_one, one_mul, Int.toNat_of_nonneg (by omega)]
  · next small =>
    rw [power, ← zpow_add₀ two_ne_zero, Nat.cast_one, Int.toNat_of_nonneg (by omega), show 2 - e + (e - 2) = 0 by omega,
      zpow_zero]

/-- The three numbers of a rounding, over its denominator. -/
theorem value_eq (m : Nat) (e : Int) : ((Rounding.of m e).value : ℚ) = (Rounding.of m e).den * (m * 2 ^ e) := by
  unfold Rounding.of
  dsimp only
  rw [Nat.cast_mul, scale_eq]
  push_cast
  ring

theorem low_eq (positive : 0 < m) :
    ((Rounding.of m e).low : ℚ) = (Rounding.of m e).den * ((m - lowerHalf m e) * 2 ^ e) := by
  unfold Rounding.of lowerHalf
  simp only [Bool.and_eq_true, beq_iff_eq, bne_iff_ne]
  rw [Nat.cast_mul, scale_eq]
  split
  · next narrow =>
    have narrow : m = 2 ^ 52 ∧ e ≠ -1074 := narrow
    rw [if_pos narrow, Nat.cast_sub (by omega)]
    push_cast
    ring
  · next wide =>
    have wide : ¬(m = 2 ^ 52 ∧ e ≠ -1074) := wide
    rw [if_neg wide, Nat.cast_sub (by omega)]
    push_cast
    ring

theorem high_eq (m : Nat) (e : Int) :
    ((Rounding.of m e).high : ℚ) = (Rounding.of m e).den * ((m + 1 / 2) * 2 ^ e) := by
  unfold Rounding.of
  dsimp only
  rw [Nat.cast_mul, scale_eq]
  push_cast
  ring

section Comparing

variable {bound unit num den : Nat} {x : ℚ}

theorem bound_le_iff (positive : 0 < unit) (some : 0 < den) (same : (bound : ℚ) = unit * x) :
    bound * den ≤ num * unit ↔ x ≤ num / den := by
  have unitPos : (0 : ℚ) < unit := by exact_mod_cast positive
  have denPos : (0 : ℚ) < den := by exact_mod_cast some
  rw [le_div_iff₀ denPos, ← mul_le_mul_iff_right₀ unitPos, ← mul_assoc, ← same, mul_comm (unit : ℚ)]
  exact_mod_cast Iff.rfl

theorem le_bound_iff (positive : 0 < unit) (some : 0 < den) (same : (bound : ℚ) = unit * x) :
    num * unit ≤ bound * den ↔ num / den ≤ x := by
  have unitPos : (0 : ℚ) < unit := by exact_mod_cast positive
  have denPos : (0 : ℚ) < den := by exact_mod_cast some
  rw [div_le_iff₀ denPos, ← mul_le_mul_iff_right₀ unitPos, ← mul_assoc, ← same, mul_comm (unit : ℚ)]
  exact_mod_cast Iff.rfl

end Comparing

theorem holds_iff (positive : 0 < m) (num : Nat) {den : Nat} (some : 0 < den) :
    (Rounding.of m e).holds num den = true ↔ RoundsTo m e (num / den) := by
  have unit := den_pos m e
  have closed : (Rounding.of m e).closed = (m % 2 == 0) := rfl
  rw [roundsTo_iff, ← bound_le_iff unit some (low_eq positive), ← le_bound_iff unit some (high_eq m e),
    ← not_le, ← not_le, ← bound_le_iff unit some (high_eq m e), ← le_bound_iff unit some (low_eq positive)]
  unfold holds
  rw [closed]
  split <;> simp_all

section Grids

variable {tie : Tie} {place : Int} {n : Nat}

theorem ten_up (up : 0 ≤ place) : ((Nat.pow 10 place.natAbs : Nat) : ℚ) = 10 ^ place := by
  refine (Nat.cast_pow 10 place.natAbs).trans ?_
  rw [Nat.cast_ofNat, ← zpow_natCast, Int.natAbs_of_nonneg up]

theorem ten_down (down : ¬0 ≤ place) : ((Nat.pow 10 place.natAbs : Nat) : ℚ) = (10 ^ place)⁻¹ := by
  refine (Nat.cast_pow 10 place.natAbs).trans ?_
  rw [Nat.cast_ofNat, ← zpow_natCast, ← zpow_neg, Int.ofNat_natAbs_of_nonpos (by omega)]

theorem ten_pos (place : Int) : 0 < Nat.pow 10 place.natAbs :=
  Nat.pow_pos (by decide)

/-- A number of the grid is taken if it is rounded to the double. -/
theorem fits_iff (positive : 0 < m) (place : Int) (n : Nat) :
    (if 0 ≤ place then (Rounding.of m e).holds (n * Nat.pow 10 place.natAbs) 1
      else (Rounding.of m e).holds n (Nat.pow 10 place.natAbs)) = true ↔ RoundsTo m e (n * 10 ^ place) := by
  split
  · next up => rw [holds_iff positive _ Nat.one_pos, Nat.cast_mul, ten_up up, Nat.cast_one, div_one]
  · next down => rw [holds_iff positive _ (ten_pos place), ten_down down, div_inv_eq_mul]

/-- The last number of the grid that is not above the double. -/
theorem floor_grid (m : Nat) (e place : Int) : ∃ below : Nat,
    (if 0 ≤ place then (Rounding.of m e).value else (Rounding.of m e).value * Nat.pow 10 place.natAbs) /
        (if 0 ≤ place then (Rounding.of m e).den * Nat.pow 10 place.natAbs else (Rounding.of m e).den) = below ∧
      below * 10 ^ place ≤ (m * 2 ^ e : ℚ) ∧ (m * 2 ^ e : ℚ) < (below + 1) * 10 ^ place := by
  refine ⟨_, rfl, ?_⟩
  have unit : (0 : ℚ) < 10 ^ place := by positivity
  have parts : (0 : ℚ) < (Rounding.of m e).den := by exact_mod_cast den_pos m e
  rw [← le_div_iff₀ unit, ← div_lt_iff₀ unit]
  generalize number : (if 0 ≤ place then (Rounding.of m e).value
    else (Rounding.of m e).value * Nat.pow 10 place.natAbs) = num
  generalize divisor : (if 0 ≤ place then (Rounding.of m e).den * Nat.pow 10 place.natAbs
    else (Rounding.of m e).den) = den
  have positive : 0 < den := by
    rw [← divisor]
    split
    · exact Nat.mul_pos (den_pos m e) (ten_pos place)
    · exact den_pos m e
  have denPos : (0 : ℚ) < den := by exact_mod_cast positive
  have quotient : (m * 2 ^ e : ℚ) / 10 ^ place = num / den := by
    rw [← number, ← divisor]
    split
    · next up =>
      rw [value_eq, Nat.cast_mul, ten_up up]
      field_simp
    · next down =>
      rw [Nat.cast_mul, value_eq, ten_down down]
      field_simp
  rw [quotient]
  refine ⟨Nat.cast_div_le, ?_⟩
  rw [div_lt_iff₀ denPos, mul_comm]
  exact_mod_cast Nat.lt_mul_div_succ num positive

/-- The two numbers of a grid next to the double, and what is taken of them. -/
theorem onGrid_cases (positive : 0 < m) (tie : Tie) (place : Int) : ∃ below : Nat,
    below * 10 ^ place ≤ (m * 2 ^ e : ℚ) ∧ (m * 2 ^ e : ℚ) < (below + 1) * 10 ^ place ∧
      ((∃ n, (Rounding.of m e).onGrid tie place = some n ∧ RoundsTo m e (n * 10 ^ place) ∧
          (n = below ∧ below ≠ 0 ∨ n = below + 1)) ∨
        (Rounding.of m e).onGrid tie place = none ∧ (RoundsTo m e (below * 10 ^ place) → below = 0) ∧
          ¬RoundsTo m e ((below + 1 : Nat) * 10 ^ place)) := by
  obtain ⟨below, quotient, lower, upper⟩ := floor_grid m e place
  refine ⟨below, lower, upper, ?_⟩
  have either {choice : Bool} (first : RoundsTo m e (below * 10 ^ place)) (some : below ≠ 0)
      (second : RoundsTo m e ((below + 1 : Nat) * 10 ^ place)) :
      RoundsTo m e ((if choice = true then below + 1 else below : Nat) * 10 ^ place) ∧
        ((if choice = true then below + 1 else below) = below ∧ below ≠ 0 ∨
          (if choice = true then below + 1 else below) = below + 1) := by
    cases choice with
    | false => exact ⟨first, Or.inl ⟨rfl, some⟩⟩
    | true => exact ⟨second, Or.inr rfl⟩
  unfold onGrid
  simp only [quotient]
  split
  · next first second =>
    have kept := Bool.and_eq_true_iff.mp first
    exact Or.inl ⟨_, rfl, either ((fits_iff positive place _).mp kept.1) (bne_iff_ne.mp kept.2)
      ((fits_iff positive place _).mp second)⟩
  · next first _ =>
    have kept := Bool.and_eq_true_iff.mp first
    exact Or.inl ⟨_, rfl, (fits_iff positive place _).mp kept.1, Or.inl ⟨rfl, bne_iff_ne.mp kept.2⟩⟩
  · next _ second => exact Or.inl ⟨_, rfl, (fits_iff positive place _).mp second, Or.inr rfl⟩
  · next first second =>
    refine Or.inr ⟨rfl, fun rounds => ?_, fun rounds => ?_⟩
    · rw [(fits_iff positive place _).mpr rounds, Bool.true_and] at first
      exact of_not_not fun some => Bool.false_ne_true (first.symm.trans (bne_iff_ne.mpr some))
    · exact Bool.false_ne_true (second.symm.trans ((fits_iff positive place _).mpr rounds))

/-- What is found on a grid is rounded to the double, and at most one step above it. -/
theorem onGrid_some (positive : 0 < m) (found : (Rounding.of m e).onGrid tie place = some n) :
    RoundsTo m e (n * 10 ^ place) ∧ 0 < n ∧ (n - 1) * 10 ^ place ≤ (m * 2 ^ e : ℚ) := by
  obtain ⟨below, lower, _, ⟨k, taken, rounds, which⟩ | ⟨none, _⟩⟩ := onGrid_cases (e := e) positive tie place
  · cases taken.symm.trans found
    refine ⟨rounds, by omega, LE.le.trans ?_ lower⟩
    have least : ((n : ℚ) - 1) ≤ below := by
      rcases which with ⟨rfl, _⟩ | rfl
      · linarith
      · push_cast
        linarith
    gcongr
  · cases none.symm.trans found

/-- A grid with a number that is rounded to the double has one next to the double. -/
theorem onGrid_isSome (positive : 0 < m) (rounds : RoundsTo m e (n * 10 ^ place)) (present : 0 < n) (tie : Tie) :
    ∃ k, (Rounding.of m e).onGrid tie place = some k := by
  obtain ⟨below, lower, upper, ⟨k, taken, _⟩ | ⟨_, first, second⟩⟩ := onGrid_cases (e := e) positive tie place
  · exact ⟨k, taken⟩
  · have step : (0 : ℚ) < 10 ^ place := by positivity
    rcases Nat.lt_or_ge below n with more | less
    · refine absurd ((roundsTo_self m e).between rounds ?_ ?_) second
      · push_cast
        exact upper.le
      · gcongr
        exact more
    · have zero := first (rounds.between (roundsTo_self m e) (by gcongr) lower)
      omega

end Grids

end Rounding

namespace Decimal

/-- The number that a decimal stands for. -/
def value (d : Decimal) : ℚ :=
  d.digits * 10 ^ d.exponent

theorem reduce_eq (fuel : Nat) (d : Decimal) :
    ∃ k : Nat, d.digits = (reduce fuel d).digits * 10 ^ k ∧ (reduce fuel d).exponent = d.exponent + k := by
  induction fuel generalizing d with
  | zero => exact ⟨0, (Nat.mul_one _).symm, (Int.add_zero _).symm⟩
  | succ fuel ih =>
    rw [reduce]
    split
    · next ten =>
      have divides : d.digits % 10 = 0 := beq_iff_eq.mp (Bool.and_eq_true_iff.mp ten).1
      obtain ⟨k, digits, exponent⟩ := ih ⟨d.digits / 10, d.exponent + 1⟩
      dsimp only at digits exponent
      refine ⟨k + 1, ?_, by omega⟩
      rw [Nat.pow_succ, ← Nat.mul_assoc, ← digits]
      omega
    · exact ⟨0, (Nat.mul_one _).symm, (Int.add_zero _).symm⟩

theorem reduce_value (fuel : Nat) (d : Decimal) : (reduce fuel d).value = d.value := by
  obtain ⟨k, digits, exponent⟩ := reduce_eq fuel d
  rw [value, value, exponent, digits, zpow_add₀ (by norm_num), zpow_natCast]
  push_cast
  ring

end Decimal

section Places

theorem digitCount_lt (n : Nat) : n < 10 ^ digitCount n :=
  (Nat.length_toDigits_le_iff (by decide) Nat.length_toDigits_pos).mp (Nat.le_refl _)

theorem le_digitCount {n : Nat} (positive : 0 < n) : 10 ^ (digitCount n - 1) ≤ n := by
  by_contra less
  rcases Nat.eq_zero_or_pos (digitCount n - 1) with one | more
  · rw [one] at less
    omega
  · have fewer : digitCount n ≤ digitCount n - 1 :=
      (Nat.length_toDigits_le_iff (by decide) more).mpr (Nat.lt_of_not_le less)
    omega

theorem ten_pred (n : Nat) : (10 : ℚ) ^ ((digitCount n : Int) - 1) = (10 ^ (digitCount n - 1) : Nat) := by
  have some : 0 < digitCount n := Nat.length_toDigits_pos
  rw [← Nat.cast_pred some, zpow_natCast]
  push_cast
  rfl

/-- The place of the first digit of a number. -/
theorem decimalExponent_bounds {num den : Nat} (some : 0 < num) (positive : 0 < den) :
    (10 : ℚ) ^ decimalExponent num den ≤ num / den ∧ (num / den : ℚ) < 10 ^ (decimalExponent num den + 1) := by
  have denPos : (0 : ℚ) < den := by exact_mod_cast positive
  have numPos : (0 : ℚ) < num := by exact_mod_cast some
  unfold decimalExponent
  split
  · next large =>
    have quotient : 0 < num / den := Nat.div_pos large positive
    rw [ten_pred, sub_add_cancel, zpow_natCast, le_div_iff₀ denPos, div_lt_iff₀ denPos]
    constructor
    · exact_mod_cast (Nat.mul_le_mul_right den (le_digitCount quotient)).trans (Nat.div_mul_le_self num den)
    · have next : num < (num / den + 1) * den := by
        rw [Nat.mul_comm]
        exact Nat.lt_mul_div_succ num positive
      exact_mod_cast next.trans_le (Nat.mul_le_mul_right den (digitCount_lt (num / den)))
  · next small =>
    -- The whole part of the inverse, a little smaller so that a power of ten counts as one digit less.
    have inverse : (den + num - 1) / num - 1 = (den - 1) / num := by
      rw [show den + num - 1 = den - 1 + num by omega, Nat.add_div_right _ some, Nat.succ_sub_one]
    rw [inverse]
    have quotient : 0 < (den - 1) / num := Nat.div_pos (by omega) some
    have floor := Nat.div_mul_le_self (den - 1) num
    have next : den - 1 < ((den - 1) / num + 1) * num := by
      rw [Nat.mul_comm]
      exact Nat.lt_mul_div_succ (den - 1) some
    constructor
    · rw [le_div_iff₀ denPos, zpow_neg, zpow_natCast, inv_mul_le_iff₀ (by positivity)]
      have most := Nat.mul_le_mul_right num (digitCount_lt ((den - 1) / num))
      have whole : den ≤ 10 ^ digitCount ((den - 1) / num) * num := by
        rw [Nat.succ_mul] at most next
        omega
      exact_mod_cast whole
    · rw [div_lt_iff₀ denPos, neg_add_eq_sub, ← neg_sub, zpow_neg, ten_pred,
        lt_inv_mul_iff₀ (by exact_mod_cast Nat.pow_pos (by decide))]
      have least := Nat.mul_le_mul_right num (le_digitCount quotient)
      have whole : 10 ^ (digitCount ((den - 1) / num) - 1) * num < den := by omega
      exact_mod_cast whole

end Places

section Searching

variable {m n : Nat} {e place target : Int}

/-- The search stops no later than at a grid that has a number which is rounded to the double. -/
theorem Rounding.search_stops (tie : Tie) (positive : 0 < m) (rounds : RoundsTo m e (n * 10 ^ target))
    (present : 0 < n) (fuel : Nat) (reach : target ≤ place) (enough : place - target < fuel) :
    ∃ digits stop, (Rounding.of m e).search tie place fuel = Decimal.reduce 20 ⟨digits, stop⟩ ∧
      (Rounding.of m e).onGrid tie stop = some digits ∧ target ≤ stop ∧ stop ≤ place := by
  induction fuel generalizing place with
  | zero => omega
  | succ fuel ih =>
    rw [search]
    cases found : (Rounding.of m e).onGrid tie place with
    | some digits => exact ⟨digits, place, rfl, found, reach, Int.le_refl _⟩
    | none =>
      have above : target ≠ place := by
        rintro rfl
        obtain ⟨k, taken⟩ := onGrid_isSome positive rounds present tie
        cases taken.symm.trans found
      have later : target ≤ place - 1 := by omega
      obtain ⟨digits, stop, same, taken, low, high⟩ := ih later (by omega)
      exact ⟨digits, stop, same, taken, low, by omega⟩

variable (tie : Tie)

/-- The search starts at the place of the first digit. -/
def firstPlace (m : Nat) (e : Int) : Int :=
  decimalExponent (Rounding.of m e).value (Rounding.of m e).den

theorem firstPlace_bounds (positive : 0 < m) :
    (10 : ℚ) ^ firstPlace m e ≤ m * 2 ^ e ∧ (m * 2 ^ e : ℚ) < 10 ^ (firstPlace m e + 1) := by
  have denPos := Rounding.den_pos m e
  have unit : (0 : ℚ) < (Rounding.of m e).den := by exact_mod_cast denPos
  have number : (0 : ℚ) < m * 2 ^ e := (roundsTo_self m e).positive positive
  have some : 0 < (Rounding.of m e).value := by
    have scaled := mul_pos unit number
    rw [← Rounding.value_eq] at scaled
    exact_mod_cast scaled
  have bounds := decimalExponent_bounds some denPos
  rwa [Rounding.value_eq, mul_div_cancel_left₀ _ unit.ne'] at bounds

theorem shortest_stops (positive : 0 < m) (rounds : RoundsTo m e (n * 10 ^ target)) (present : 0 < n)
    (reach : target ≤ firstPlace m e) (near : firstPlace m e < target + 18) :
    RoundsTo m e (shortest tie m e).value ∧ 0 < (shortest tie m e).digits ∧
      target ≤ (shortest tie m e).exponent ∧
      ((shortest tie m e).digits - 1) * 10 ^ target ≤ (m * 2 ^ e : ℚ) := by
  obtain ⟨digits, stop, same, taken, low, _⟩ :=
    Rounding.search_stops tie positive rounds present 18 reach (by omega)
  obtain ⟨found, some, close⟩ := Rounding.onGrid_some positive taken
  obtain ⟨k, scaled, moved⟩ := Decimal.reduce_eq 20 ⟨digits, stop⟩
  have value := Decimal.reduce_value 20 ⟨digits, stop⟩
  have shortestSame : shortest tie m e = Decimal.reduce 20 ⟨digits, stop⟩ := same
  rw [← shortestSame] at scaled moved value
  dsimp only at scaled moved
  have positiveDigits : 0 < (shortest tie m e).digits := by
    apply Nat.pos_of_ne_zero
    intro zero
    rw [zero, Nat.zero_mul] at scaled
    omega
  refine ⟨value ▸ found, positiveDigits, by omega, LE.le.trans ?_ close⟩
  have fewer : ((shortest tie m e).digits : ℚ) ≤ digits := by
    exact_mod_cast scaled ▸ Nat.le_mul_of_pos_right _ (Nat.pow_pos (by decide))
  have least : (1 : ℚ) ≤ (shortest tie m e).digits := by exact_mod_cast positiveDigits
  have lower : (10 : ℚ) ^ target ≤ 10 ^ stop := zpow_le_zpow_right₀ (by norm_num) low
  have nonnegative : (0 : ℚ) ≤ digits - 1 := by linarith
  gcongr

/-- At most seventeen digits after the first one are needed, so the search does not go on without a result. -/
theorem shortest_rounds (positive : 0 < m) (short : m < 2 ^ 53) :
    RoundsTo m e (shortest tie m e).value ∧ 0 < (shortest tie m e).digits ∧ (shortest tie m e).digits < 2 ^ 64 ∧
      firstPlace m e - 17 ≤ (shortest tie m e).exponent := by
  obtain ⟨low, high⟩ := firstPlace_bounds (e := e) positive
  obtain ⟨below, _, floor, ceiling⟩ := Rounding.floor_grid m e (firstPlace m e - 17)
  have unit : (0 : ℚ) < 10 ^ (firstPlace m e - 17) := by positivity
  have bits : (m : ℚ) < 2 ^ 53 := by exact_mod_cast short
  have last : (0 : ℚ) < 2 ^ e := by positivity
  have up (k : Nat) : (10 : ℚ) ^ (firstPlace m e - 17 + k) = 10 ^ k * 10 ^ (firstPlace m e - 17) := by
    rw [zpow_add₀ (by norm_num), zpow_natCast, mul_comm]
  rw [show firstPlace m e = firstPlace m e - 17 + (17 : Nat) by push_cast; ring, up] at low
  rw [show firstPlace m e + 1 = firstPlace m e - 17 + (18 : Nat) by push_cast; ring, up] at high
  -- A step of the last grid is less than a quarter of the last place.
  have fine : (10 : ℚ) ^ (firstPlace m e - 17) ≤ 1 / 4 * 2 ^ e := by
    have scaled : (m : ℚ) * 2 ^ e ≤ 2 ^ 53 * 2 ^ e := by gcongr
    linarith
  have rounds : RoundsTo m e (below * 10 ^ (firstPlace m e - 17)) := roundsTo_below (by linarith) floor
  have present : 0 < below := by
    apply Nat.pos_of_ne_zero
    rintro rfl
    rw [Nat.cast_zero, zero_add, one_mul] at ceiling
    linarith
  obtain ⟨found, some, down, close⟩ := shortest_stops tie positive rounds present (by omega) (by omega)
  refine ⟨found, some, ?_, down⟩
  have few := lt_of_mul_lt_mul_right (close.trans_lt high) unit.le
  have most : ((shortest tie m e).digits : ℚ) < 2 ^ 64 := by linarith
  exact_mod_cast most

/-- The exponent is not far out of the reach of doubles. -/
theorem shortest_near (positive : 0 < m) (fits : Fits m e) (high : e ≤ 971) :
    (shortest tie m e).exponent.natAbs ≤ 1100 := by
  obtain ⟨found, some, _, down⟩ := shortest_rounds tie positive fits.short (e := e)
  obtain ⟨_, above⟩ := firstPlace_bounds (e := e) positive
  have ordered {p q : Int} (less : (10 : ℚ) ^ p < 10 ^ q) : p < q := (zpow_lt_zpow_iff_right₀ (by norm_num)).mp less
  have least : (1 : ℚ) ≤ m := by exact_mod_cast positive
  have bits : (m : ℚ) < 2 ^ 53 := by exact_mod_cast fits.short
  have one : (1 : ℚ) ≤ (shortest tie m e).digits := by exact_mod_cast some
  have unit : (0 : ℚ) < 2 ^ e := by positivity
  have lower : -1074 < firstPlace m e + 1 := by
    refine ordered ?_
    calc (10 : ℚ) ^ (-1074 : Int) ≤ 2 ^ (-1074 : Int) := by
          rw [zpow_neg, zpow_neg]
          exact inv_anti₀ (by positivity) (zpow_le_zpow_left₀ (by norm_num) (by norm_num) (by norm_num))
      _ ≤ 2 ^ e := zpow_le_zpow_right₀ (by norm_num) fits.low
      _ ≤ m * 2 ^ e := le_mul_of_one_le_left unit.le least
      _ < 10 ^ (firstPlace m e + 1) := above
  have upper : (shortest tie m e).exponent < 1025 := by
    refine ordered ?_
    calc (10 : ℚ) ^ (shortest tie m e).exponent ≤ (shortest tie m e).value :=
          le_mul_of_one_le_left (by positivity) one
      _ ≤ (m + 1 / 2) * 2 ^ e := found.bounds.2
      _ ≤ 2 ^ (54 : Int) * 2 ^ (971 : Int) := by
          gcongr
          · norm_num
            linarith
          · norm_num
      _ = 2 ^ (1025 : Int) := by
          rw [← zpow_add₀ (by norm_num)]
          rfl
      _ < 10 ^ (1025 : Int) := zpow_lt_zpow_left₀ (by norm_num) (by norm_num) (by norm_num)
  omega

/-- A double that a number of at most 15 digits and 21 places is rounded to is written with a significand and a
power of ten that are doubles. -/
theorem shortest_short (positive : 0 < m) {k : Nat} (present : 0 < n) (few : n < 10 ^ 15) (places : k ≤ 21)
    (rounds : RoundsTo m e (n / 10 ^ k)) :
    (shortest tie m e).digits < 2 ^ 53 ∧ (shortest tie m e).exponent.natAbs ≤ 22 := by
  obtain ⟨low, high⟩ := firstPlace_bounds (e := e) positive
  obtain ⟨lower, upper⟩ := rounds.bounds
  have unit : (0 : ℚ) < 2 ^ e := by positivity
  have place : (n / 10 ^ k : ℚ) = n * 10 ^ (-k : Int) := by
    rw [zpow_neg, zpow_natCast, div_eq_mul_inv]
  have least : (1 : ℚ) ≤ m := by exact_mod_cast positive
  have scaled : (2 : ℚ) ^ e ≤ m * 2 ^ e := le_mul_of_one_le_left unit.le least
  have digits : (n : ℚ) < 10 ^ 15 := by exact_mod_cast few
  have some : (1 : ℚ) ≤ n := by exact_mod_cast present
  rw [place] at rounds lower upper
  have last : (0 : ℚ) < 10 ^ (-k : Int) := by positivity
  have whole : (n : ℚ) * 10 ^ (-k : Int) ≤ 10 ^ 15 * 10 ^ (-k : Int) := by gcongr
  have up (p : Int) (j : Nat) : (10 : ℚ) ^ (p + j) = 10 ^ j * 10 ^ p := by
    rw [zpow_add₀ (by norm_num), zpow_natCast, mul_comm]
  have ordered {p q : Int} (less : (10 : ℚ) ^ p < 10 ^ q) : p < q := (zpow_lt_zpow_iff_right₀ (by norm_num)).mp less
  -- Its own grid, or that of the first digit if it is larger.
  obtain ⟨target, n', grid, present', reach, near, most, down⟩ : ∃ (target : Int) (n' : Nat),
      RoundsTo m e (n' * 10 ^ target) ∧ 0 < n' ∧ target ≤ firstPlace m e ∧ firstPlace m e < target + 18 ∧
        (m * 2 ^ e : ℚ) ≤ 2 * 10 ^ 15 * 10 ^ target ∧ -22 ≤ target := by
    rcases le_or_gt (-k : Int) (firstPlace m e) with inside | outside
    · refine ⟨-k, n, rounds, present, inside, ?_, by linarith, by omega⟩
      have below : (10 : ℚ) ^ firstPlace m e < 10 ^ (-k + (16 : Nat) : Int) := by
        rw [up]
        linarith
      have near := ordered below
      omega
    · have first : (10 : ℚ) ^ (firstPlace m e + 1) ≤ 10 ^ (-k : Int) :=
        zpow_le_zpow_right₀ (by norm_num) (by omega)
      have self : (10 : ℚ) ^ (-k : Int) ≤ n * 10 ^ (-k : Int) := le_mul_of_one_le_left last.le some
      have grid := (roundsTo_self m e).between rounds high.le (first.trans self)
      have ten : (10 : ℚ) ^ (firstPlace m e + 1) = 10 * 10 ^ firstPlace m e := by
        rw [zpow_add_one₀ (by norm_num), mul_comm]
      rw [ten] at grid high
      refine ⟨firstPlace m e, 10, grid, by decide, le_refl _, by omega, by linarith, ?_⟩
      have above : (10 : ℚ) ^ (-k : Int) < 10 ^ (firstPlace m e + (2 : Nat) : Int) := by
        rw [up]
        linarith
      have down := ordered above
      omega
  obtain ⟨found, positiveDigits, floor, close⟩ := shortest_stops tie positive grid present' reach near
  have step : (0 : ℚ) < 10 ^ target := by positivity
  constructor
  · have fewer := le_of_mul_le_mul_right (close.trans most) step
    have bound : ((shortest tie m e).digits : ℚ) < 2 ^ 53 := by linarith
    exact_mod_cast bound
  · have one : (1 : ℚ) ≤ (shortest tie m e).digits := by exact_mod_cast positiveDigits
    have self : (10 : ℚ) ^ (shortest tie m e).exponent ≤ (shortest tie m e).value :=
      le_mul_of_one_le_left (by positivity) one
    have small : (10 : ℚ) ^ (-k : Int) ≤ 1 := zpow_le_one_of_nonpos₀ (by norm_num) (by omega)
    have above := found.bounds.2
    have below : (10 : ℚ) ^ (shortest tie m e).exponent < 10 ^ (16 : Int) := by
      norm_num
      linarith
    have high := ordered below
    omega

end Searching

end Tablature
