import Tablature.Proofs.Json.Numbers
import Tablature.Proofs.ShortestDecimal

namespace Tablature.Json

section Runs

variable {ds rest : List Char} {value : Nat} (negative : Bool)

theorem endsDigits_point (cs : List Char) : EndsDigits ('.' :: cs) := by
  rintro c ⟨⟩
  rfl

theorem endsDigits_mark (cs : List Char) : EndsDigits ('e' :: cs) := by
  rintro c ⟨⟩
  rfl

theorem digitsValueFrom_append (value : Nat) (first last : List Char) :
    digitsValueFrom value (first ++ last) = digitsValueFrom (digitsValueFrom value first) last :=
  List.foldl_append

theorem digitsValueFrom_zeros (n : Nat) : digitsValueFrom 0 (List.replicate n '0') = 0 := by
  induction n with
  | zero => rfl
  | succ n ih =>
    rw [List.replicate_succ, digitsValueFrom_cons]
    exact ih

theorem afterDigits_ends (ends : EndsNumber rest) (significand : Nat) (exponent : Int) :
    afterDigits negative significand exponent rest = finishFloat negative significand exponent rest := by
  cases rest with
  | nil => rfl
  | cons c rest => rw [afterDigits, if_neg (by rw [(ends c rfl).2.2]; exact Bool.false_ne_true)]

theorem readFraction_digits (before : Int) (digits : ∀ d ∈ ds, isDigit d = true)
    (fits : digitsValueFrom value ds < significandLimit) (ends : EndsDigits rest) {count : Nat}
    (some : 0 < count + ds.length) :
    readFraction negative before value count (ds ++ rest) =
      afterDigits negative (digitsValueFrom value ds) (before - (count + ds.length : Nat)) rest := by
  induction ds generalizing value count with
  | nil =>
    rw [List.length_nil, Nat.add_zero] at some ⊢
    rw [List.nil_append]
    cases rest with
    | nil => rw [readFraction, if_neg some.ne', digitsValueFrom, List.foldl_nil]
    | cons c rest =>
      rw [readFraction, if_neg (by rw [ends c rfl]; exact Bool.false_ne_true), if_neg some.ne', digitsValueFrom,
        List.foldl_nil]
  | cons d ds ih =>
    have digit := digits d List.mem_cons_self
    have more := le_digitsValueFrom (10 * value + digitValue d) ds
    rw [digitsValueFrom_cons] at fits ⊢
    have small : 10 * value + digitValue d < significandLimit := Nat.lt_of_le_of_lt more fits
    rw [List.cons_append, readFraction, if_pos digit]
    dsimp only
    rw [if_pos small, ih (fun d member => digits d (List.mem_cons_of_mem _ member)) fits (by omega), List.length_cons,
      Nat.add_right_comm, Nat.add_assoc]

theorem readExponentDigits_digits (significand : Nat) (start : Int) (down : Bool)
    (digits : ∀ d ∈ ds, isDigit d = true) (fits : digitsValueFrom value ds < exponentLimit) (ends : EndsNumber rest) :
    readExponentDigits negative significand start down value (ds ++ rest) =
      finishFloat negative significand
        (if down then start - digitsValueFrom value ds else start + digitsValueFrom value ds) rest := by
  induction ds generalizing value with
  | nil =>
    rw [List.nil_append]
    cases rest with
    | nil => rfl
    | cons c rest =>
      rw [readExponentDigits, if_neg (by rw [(ends c rfl).1]; exact Bool.false_ne_true)]
      rfl
  | cons d ds ih =>
    have digit := digits d List.mem_cons_self
    have more := le_digitsValueFrom (10 * value + digitValue d) ds
    rw [digitsValueFrom_cons] at fits ⊢
    have small : 10 * value + digitValue d < exponentLimit := Nat.lt_of_le_of_lt more fits
    rw [List.cons_append, readExponentDigits, if_pos digit]
    dsimp only
    rw [if_pos small]
    exact ih (fun d member => digits d (List.mem_cons_of_mem _ member)) fits

/-- An exponent is read as it is written. -/
theorem readExponent_written (significand : Nat) (start : Int) {exponent : Int}
    (fits : exponent.natAbs < exponentLimit) (ends : EndsNumber rest) :
    readExponent negative significand start
        ((if exponent < 0 then '-' else '+') :: Nat.toDigits 10 exponent.natAbs ++ rest) =
      finishFloat negative significand (start + exponent) rest := by
  obtain ⟨d, ds, same⟩ := List.exists_cons_of_ne_nil (Nat.toDigits_ne_nil (n := exponent.natAbs) (b := 10))
  have digits : ∀ c ∈ d :: ds, isDigit c = true := by
    rw [← same]
    exact fun c member => isDigit_toDigits member
  have total : digitsValueFrom (digitValue d) ds = exponent.natAbs := by
    have value := digitsValue_toDigits exponent.natAbs
    rw [same, digitsValue, digitsValueFrom_cons, Nat.mul_zero, Nat.zero_add] at value
    exact value
  have read (down : Bool) := readExponentDigits_digits negative significand start down
    (fun c member => digits c (List.mem_cons_of_mem _ member)) (by rw [total]; exact fits) ends
  rw [total] at read
  rw [same]
  split
  · next below =>
    change (if isDigit d = true then readExponentDigits negative significand start true (digitValue d) (ds ++ rest)
      else _) = _
    rw [if_pos (digits d List.mem_cons_self), read, if_pos rfl]
    congr 1
    omega
  · next above =>
    change (if isDigit d = true then readExponentDigits negative significand start false (digitValue d) (ds ++ rest)
      else _) = _
    rw [if_pos (digits d List.mem_cons_self), read, if_neg Bool.false_ne_true]
    congr 1
    omega

end Runs

section Forms

variable {n : Nat} {point : Int} {rest : List Char} (negative : Bool)

theorem afterInteger_point (significand : Nat) {ds : List Char} (digits : ∀ d ∈ ds, isDigit d = true)
    (some : 0 < ds.length) (fits : digitsValueFrom significand ds < significandLimit) (ends : EndsDigits rest) :
    afterInteger negative significand ('.' :: (ds ++ rest)) =
      afterDigits negative (digitsValueFrom significand ds) (-ds.length) rest := by
  rw [afterInteger, if_pos rfl, readFraction_digits negative 0 digits fits ends (by omega), Nat.zero_add, Int.zero_sub]

/-- All digits stand after the point. -/
theorem readNumber_below (fits : n < significandLimit) (low : point ≤ 0) (ends : EndsNumber rest) :
    readNumber negative (['0', '.'] ++ List.replicate point.natAbs '0' ++ Nat.toDigits 10 n ++ rest) =
      finishFloat negative n (point - (Nat.toDigits 10 n).length) rest := by
  have digits : ∀ d ∈ List.replicate point.natAbs '0' ++ Nat.toDigits 10 n, isDigit d = true := by
    intro d member
    rcases List.mem_append.mp member with zero | member
    · rw [List.eq_of_mem_replicate zero]
      rfl
    · exact isDigit_toDigits member
  have value : digitsValueFrom 0 (List.replicate point.natAbs '0' ++ Nat.toDigits 10 n) = n := by
    rw [digitsValueFrom_append, digitsValueFrom_zeros]
    exact digitsValue_toDigits n
  have some : 0 < (Nat.toDigits 10 n).length := Nat.length_toDigits_pos
  have start : readNumber negative (['0', '.'] ++ List.replicate point.natAbs '0' ++ Nat.toDigits 10 n ++ rest) =
      afterInteger negative 0 ('.' :: (List.replicate point.natAbs '0' ++ Nat.toDigits 10 n ++ rest)) := rfl
  rw [start, afterInteger_point negative 0 digits (by rw [List.length_append]; omega) (by rw [value]; exact fits)
    ends.digits, value, afterDigits_ends negative ends, List.length_append, List.length_replicate]
  congr 1
  omega

/-- A point among digits that do not begin with a zero. -/
theorem readNumber_point {d : Char} {ds last : List Char} (nonzero : d ≠ '0')
    (digits : ∀ c ∈ d :: ds ++ last, isDigit c = true) (some : 0 < last.length)
    (fits : digitsValue (d :: ds ++ last) < significandLimit) (ends : EndsDigits rest) :
    readNumber negative (d :: ds ++ '.' :: (last ++ rest)) =
      afterDigits negative (digitsValue (d :: ds ++ last)) (-last.length) rest := by
  have total : digitsValue (d :: ds ++ last) = digitsValueFrom (digitsValue (d :: ds)) last :=
    digitsValueFrom_append 0 _ _
  have less := le_digitsValueFrom (digitsValue (d :: ds)) last
  rw [total] at fits ⊢
  rw [readNumber_run negative nonzero (fun c member => digits c (List.mem_append_left _ member)) (by omega)
      (endsDigits_point _),
    afterInteger_point negative _ (fun c member => digits c (List.mem_append_right _ member)) some fits ends]

/-- The point stands between the digits. -/
theorem readNumber_within (positive : 0 < n) (fits : n < significandLimit) {count : Nat} (some : 0 < count)
    (inside : count < (Nat.toDigits 10 n).length) (ends : EndsNumber rest) :
    readNumber negative ((Nat.toDigits 10 n).take count ++ '.' :: (Nat.toDigits 10 n).drop count ++ rest) =
      finishFloat negative n (count - (Nat.toDigits 10 n).length) rest := by
  obtain ⟨d, ds, same, nonzero⟩ := head_toDigits positive
  obtain ⟨count, rfl⟩ := Nat.exists_eq_succ_of_ne_zero some.ne'
  have digits : ∀ c ∈ Nat.toDigits 10 n, isDigit c = true := fun c member => isDigit_toDigits member
  have value := digitsValue_toDigits n
  rw [same] at inside digits value ⊢
  have parted : d :: ds.take count ++ ds.drop count = d :: ds := by rw [List.cons_append, List.take_append_drop]
  have text : (d :: ds).take (count + 1) ++ '.' :: (d :: ds).drop (count + 1) ++ rest =
      d :: ds.take count ++ '.' :: (ds.drop count ++ rest) := List.append_assoc _ _ _
  rw [List.length_cons] at inside
  rw [text, readNumber_point negative nonzero (by rw [parted]; exact digits) (by rw [List.length_drop]; omega)
      (by rw [parted, value]; exact fits) ends.digits,
    parted, value, afterDigits_ends negative ends, List.length_drop, List.length_cons]
  congr 1
  omega

/-- The point stands after the first digit, and an exponent follows. -/
theorem readNumber_exponent (positive : 0 < n) (fits : n < significandLimit) {exponent : Int}
    (small : exponent.natAbs < exponentLimit) (ends : EndsNumber rest) :
    readNumber negative (exponentText (Nat.toDigits 10 n) exponent ++ rest) =
      finishFloat negative n (exponent - (Nat.toDigits 10 n).length + 1) rest := by
  obtain ⟨d, ds, same, nonzero⟩ := head_toDigits positive
  have digits : ∀ c ∈ Nat.toDigits 10 n, isDigit c = true := fun c member => isDigit_toDigits member
  have value := digitsValue_toDigits n
  rw [same] at digits value ⊢
  cases ds with
  | nil =>
    have text : exponentText [d] exponent ++ rest =
        [d] ++ 'e' :: ((if exponent < 0 then '-' else '+') :: Nat.toDigits 10 exponent.natAbs ++ rest) := rfl
    have mark (cs : List Char) : afterInteger negative n ('e' :: cs) = readExponent negative n 0 cs := rfl
    rw [text, readNumber_run negative nonzero digits (by rw [value]; exact fits) (endsDigits_mark _), value, mark,
      readExponent_written negative n 0 small ends]
    congr 1
    simp
  | cons d' ds =>
    have text : exponentText (d :: d' :: ds) exponent ++ rest = [d] ++ '.' :: (d' :: ds ++
        'e' :: ((if exponent < 0 then '-' else '+') :: Nat.toDigits 10 exponent.natAbs ++ rest)) := by
      simp [exponentText]
    have mark (start : Int) (cs : List Char) : afterDigits negative n start ('e' :: cs) =
      readExponent negative n start cs := rfl
    rw [text, readNumber_point negative nonzero digits (by simp) (by rw [List.singleton_append, value]; exact fits)
      (endsDigits_mark _), List.singleton_append, value, mark, readExponent_written negative n _ small ends]
    congr 1
    simp only [List.length_cons]
    omega

end Forms

end Tablature.Json
