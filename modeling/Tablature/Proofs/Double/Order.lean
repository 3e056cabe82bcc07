import Tablature.Proofs.Double.Parts

namespace Tablature.Double

open Float.Model Float.Model.UnpackedFloat

/-- Numbers that fit are ordered by their exponents first and then by their mantissas, so that one integer
orders them. Infinity comes after the largest of them. -/
def rank : UnpackedFloat → Int
  | .finite s mantissa exponent _ => s.apply ((exponent + 1074) * 2 ^ 53 + mantissa)
  | .infinity s => s.apply (2 ^ 64)
  | .zero _ => 0
  | .notANumber => 0

theorem compare_neg (i j : Int) : compare (-i) (-j) = compare j i := by
  rw [Int.compare_eq_ite_lt, Int.compare_eq_ite_lt]
  simp only [Int.neg_lt_neg_iff]

theorem lexicographic {e f : Int} {m n : Nat} (short : m < 2 ^ 53) (short' : n < 2 ^ 53) :
    (compare e f).then (compare m n) = compare ((e + 1074) * 2 ^ 53 + m) ((f + 1074) * 2 ^ 53 + n) := by
  rcases Int.lt_trichotomy e f with below | rfl | above
  · rw [Int.compare_eq_lt.mpr below, Int.compare_eq_lt.mpr (by omega)]
    rfl
  · have same : compare e e = .eq := Int.compare_eq_eq.mpr rfl
    rw [same, Ordering.eq_then]
    rcases Nat.lt_trichotomy m n with below | rfl | above
    · rw [Nat.compare_eq_lt.mpr below, Int.compare_eq_lt.mpr (by omega)]
    · rw [Nat.compare_eq_eq.mpr rfl, Int.compare_eq_eq.mpr rfl]
    · rw [Nat.compare_eq_gt.mpr above, Int.compare_eq_gt.mpr (by omega)]
  · rw [Int.compare_eq_gt.mpr above, Int.compare_eq_gt.mpr (by omega)]
    rfl

/-- Finite numbers are between zero and infinity. -/
theorem rank_positive {s : Sign} {m : Nat} {e : Int} {positive : 0 < m} (double : IsDouble (.finite s m e positive)) :
    0 < rank (.finite .positive m e positive) ∧ rank (.finite .positive m e positive) < 2 ^ 64 := by
  obtain ⟨⟨short, low, full⟩, high⟩ := double.fits
  simp only [rank, Sign.apply]
  omega

theorem rank_negative {m : Nat} {e : Int} (positive : 0 < m) :
    rank (.finite .negative m e positive) = -rank (.finite .positive m e positive) := rfl

section Comparing

variable {f g : UnpackedFloat}

theorem less_rank (less : rank f < rank g) : some .lt = some (compare (rank f) (rank g)) :=
  congrArg some (Int.compare_eq_lt.mpr less).symm

theorem more_rank (more : rank g < rank f) : some .gt = some (compare (rank f) (rank g)) :=
  congrArg some (Int.compare_eq_gt.mpr more).symm

theorem compare_finite {s s' : Sign} {m m' : Nat} {e e' : Int} {positive : 0 < m} {positive' : 0 < m'}
    (double : IsDouble (.finite s m e positive)) (double' : IsDouble (.finite s' m' e' positive')) :
    (UnpackedFloat.finite s m e positive).compare (.finite s' m' e' positive') =
      some (compare (rank (.finite s m e positive)) (rank (.finite s' m' e' positive'))) := by
  have extent := rank_positive double
  have extent' := rank_positive double'
  have opposite := rank_negative (e := e) positive
  have opposite' := rank_negative (e := e') positive'
  have ordered := lexicographic (e := e) (f := e') double.fits.1.short double'.fits.1.short
  cases s with
  | negative =>
    cases s' with
    | negative =>
      have swapped : (compare (rank (.finite .positive m e positive)) (rank (.finite .positive m' e' positive'))).swap =
          compare (rank (.finite .negative m e positive)) (rank (.finite .negative m' e' positive')) := by
        rw [Int.compare_swap, rank_negative, rank_negative, compare_neg]
      rw [← swapped]
      exact congrArg (fun order => some order.swap) ordered
    | positive => exact less_rank (by omega)
  | positive =>
    cases s' with
    | negative => exact more_rank (by omega)
    | positive => exact congrArg some ordered

/-- Numbers are compared by their ranks. -/
theorem compare_eq (number : f ≠ .notANumber) (number' : g ≠ .notANumber) (double : IsDouble f)
    (double' : IsDouble g) : f.compare g = some (compare (rank f) (rank g)) := by
  have most : rank (.infinity .positive) = 2 ^ 64 := rfl
  have least : rank (.infinity .negative) = -2 ^ 64 := rfl
  have middle (s : Sign) : rank (.zero s) = 0 := rfl
  cases f with
  | notANumber => exact absurd rfl number
  | infinity s =>
    cases g with
    | notANumber => exact absurd rfl number'
    | infinity s' => cases s <;> cases s' <;> rfl
    | zero s' => cases s <;> rfl
    | finite s' m e positive =>
      have extent := rank_positive double'
      have opposite := rank_negative (e := e) positive
      cases s with
      | negative => exact less_rank (by cases s' <;> omega)
      | positive => exact more_rank (by cases s' <;> omega)
  | zero s =>
    cases g with
    | notANumber => exact absurd rfl number'
    | infinity s' => cases s' <;> rfl
    | zero s' => rfl
    | finite s' m e positive =>
      have extent := rank_positive double'
      have opposite := rank_negative (e := e) positive
      have origin := middle s
      cases s' with
      | negative => exact more_rank (by omega)
      | positive => exact less_rank (by omega)
  | finite s m e positive =>
    have extent := rank_positive double
    have opposite := rank_negative (e := e) positive
    cases g with
    | notANumber => exact absurd rfl number'
    | infinity s' =>
      cases s' with
      | negative => cases s <;> exact more_rank (by omega)
      | positive => cases s <;> exact less_rank (by omega)
    | zero s' =>
      have origin := middle s'
      cases s with
      | negative => exact less_rank (by omega)
      | positive => exact more_rank (by omega)
    | finite s' m' e' positive' => exact compare_finite double double'

end Comparing

theorem le_iff (x y : Float) :
    x ≤ y ↔ parts x ≠ .notANumber ∧ parts y ≠ .notANumber ∧ rank (parts x) ≤ rank (parts y) := by
  have compared : x ≤ y ↔ ((parts x).compare (parts y)).any Ordering.isLE = true := decide_eq_true_iff
  rw [compared]
  by_cases number : parts x = .notANumber
  · simp only [number, ne_eq, not_true_eq_false, false_and, iff_false]
    exact Bool.false_ne_true
  by_cases number' : parts y = .notANumber
  · simp only [number', ne_eq, not_true_eq_false, false_and, and_false, iff_false]
    cases parts x <;> exact Bool.false_ne_true
  rw [compare_eq number number' (isDouble_parts x) (isDouble_parts y), Option.any_some, Int.isLE_compare]
  exact ⟨fun ordered => ⟨number, number', ordered⟩, fun ordered => ordered.2.2⟩

theorem le_trans {x y z : Float} (first : x ≤ y) (second : y ≤ z) : x ≤ z := by
  rw [le_iff] at *
  exact ⟨first.1, second.2.1, Int.le_trans first.2.2 second.2.2⟩

theorem le_self {x y : Float} (below : x ≤ y) : x ≤ x ∧ y ≤ y := by
  rw [le_iff] at below
  exact ⟨(le_iff x x).mpr ⟨below.1, below.1, Int.le_refl _⟩, (le_iff y y).mpr ⟨below.2.1, below.2.1, Int.le_refl _⟩⟩

end Tablature.Double
