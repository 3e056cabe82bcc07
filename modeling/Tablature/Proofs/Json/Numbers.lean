import Tablature.Json.Number
import Tablature.Json.Printer

namespace Tablature.Json

/-- Nothing that follows could still belong to a number. -/
def EndsNumber (rest : List Char) : Prop :=
  ∀ c ∈ rest.head?, isDigit c = false ∧ c ≠ '.' ∧ isExponentMark c = false

/-- No further digit follows. -/
def EndsDigits (rest : List Char) : Prop :=
  ∀ c ∈ rest.head?, isDigit c = false

theorem EndsNumber.digits {rest : List Char} (ends : EndsNumber rest) : EndsDigits rest :=
  fun c next => (ends c next).1

section Digits

variable {ds rest : List Char} {value : Nat}

theorem digitsValueFrom_cons (value : Nat) (d : Char) (ds : List Char) :
    digitsValueFrom value (d :: ds) = digitsValueFrom (10 * value + digitValue d) ds := by
  unfold digitsValueFrom
  rw [List.foldl_cons]

theorem le_digitsValueFrom (value : Nat) (ds : List Char) : value ≤ digitsValueFrom value ds := by
  induction ds generalizing value with
  | nil => exact Nat.le_refl value
  | cons d ds ih =>
    rw [digitsValueFrom_cons]
    have more := ih (10 * value + digitValue d)
    omega

theorem isDigit_toDigits {n : Nat} {c : Char} (member : c ∈ Nat.toDigits 10 n) : isDigit c = true := by
  have digit := Nat.isDigit_of_mem_toDigits (by decide) (by decide) member
  exact digit

theorem digitsValue_toDigits (n : Nat) : digitsValue (Nat.toDigits 10 n) = n :=
  Nat.ofDigitChars_ten_toDigits

/-- Only zero is written with a zero in front. -/
theorem head_toDigits {n : Nat} (positive : 0 < n) : ∃ d ds, Nat.toDigits 10 n = d :: ds ∧ d ≠ '0' := by
  induction n using Nat.strongRecOn with
  | _ n ih =>
    by_cases small : n < 10
    · refine ⟨Nat.digitChar n, [], Nat.toDigits_of_lt_base small, ?_⟩
      rw [Ne, Nat.digitChar_eq_zero]
      omega
    · obtain ⟨d, ds, same, nonzero⟩ := ih (n / 10) (by omega) (by omega)
      refine ⟨d, ds ++ [Nat.digitChar (n % 10)], ?_, nonzero⟩
      rw [Nat.toDigits_of_base_le (by decide) (by omega), same, List.cons_append]

end Digits

section Reading

variable {ds rest : List Char} {value : Nat} (negative : Bool)

theorem afterInteger_ends (ends : EndsNumber rest) (significand : Nat) :
    afterInteger negative significand rest = .ok (finishInteger negative significand, rest) := by
  cases rest with
  | nil => rfl
  | cons c rest =>
    obtain ⟨_, notPoint, notMark⟩ := ends c rfl
    rw [afterInteger, if_neg notPoint, if_neg (by rw [notMark]; exact Bool.false_ne_true)]

/-- Digits are read to their end, if their value can be kept. -/
theorem readInteger_digits (digits : ∀ d ∈ ds, isDigit d = true) (fits : digitsValueFrom value ds < significandLimit)
    (ends : EndsDigits rest) :
    readInteger negative value (ds ++ rest) = afterInteger negative (digitsValueFrom value ds) rest := by
  induction ds generalizing value with
  | nil =>
    rw [List.nil_append]
    cases rest with
    | nil => rfl
    | cons c rest =>
      rw [readInteger, if_neg (by rw [ends c rfl]; exact Bool.false_ne_true)]
      rfl
  | cons d ds ih =>
    have digit := digits d List.mem_cons_self
    have more := le_digitsValueFrom (10 * value + digitValue d) ds
    rw [digitsValueFrom_cons] at fits ⊢
    have small : 10 * value + digitValue d < significandLimit := Nat.lt_of_le_of_lt more fits
    rw [List.cons_append, readInteger, if_pos digit]
    dsimp only
    rw [if_pos small]
    exact ih (fun d member => digits d (List.mem_cons_of_mem _ member)) fits

/-- Digits that do not begin with a zero. -/
theorem readNumber_run {d : Char} (nonzero : d ≠ '0') (digits : ∀ c ∈ d :: ds, isDigit c = true)
    (fits : digitsValue (d :: ds) < significandLimit) (ends : EndsDigits rest) :
    readNumber negative (d :: ds ++ rest) = afterInteger negative (digitsValue (d :: ds)) rest := by
  have total : digitsValueFrom (digitValue d) ds = digitsValue (d :: ds) := by
    rw [digitsValue, digitsValueFrom_cons, Nat.mul_zero, Nat.zero_add]
  rw [← total] at fits ⊢
  rw [List.cons_append, readNumber, if_pos (digits d List.mem_cons_self)]
  · exact readInteger_digits negative (fun c member => digits c (List.mem_cons_of_mem _ member)) fits ends
  · exact fun _ _ zero _ => nonzero zero

/-- Every natural number of 64 bits is read back from its digits. -/
theorem readNumber_digits {n : Nat} (fits : n < significandLimit) (ends : EndsNumber rest) :
    readNumber negative (Nat.toDigits 10 n ++ rest) = .ok (finishInteger negative n, rest) := by
  rcases Nat.eq_zero_or_pos n with rfl | positive
  · rw [Nat.toDigits_zero, List.singleton_append]
    cases rest with
    | nil => rfl
    | cons c rest =>
      obtain ⟨notDigit, _⟩ := ends c rfl
      rw [readNumber, if_neg (by rw [notDigit]; exact Bool.false_ne_true), afterInteger_ends negative ends]
  · obtain ⟨d, ds, same, nonzero⟩ := head_toDigits positive
    have digits : ∀ c ∈ d :: ds, isDigit c = true := by
      rw [← same]
      exact fun c member => isDigit_toDigits member
    have value := digitsValue_toDigits n
    rw [same] at value
    rw [same, readNumber_run negative nonzero digits (by rw [value]; exact fits) ends.digits, value,
      afterInteger_ends negative ends]

end Reading

end Tablature.Json
