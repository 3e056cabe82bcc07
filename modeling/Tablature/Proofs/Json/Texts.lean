import Tablature.Json.Printer
import Tablature.Json.Text

namespace Tablature.Json

theorem ok_bind {ε α β : Type} (a : α) (next : α → Except ε β) : (Except.ok a >>= next) = next a := rfl

theorem hexValue?_digitChar {n : Nat} (small : n < 16) : hexValue? (Nat.digitChar n) = some n := by
  revert n
  decide

/-- A control is read back from its four digits. -/
theorem readCodeUnit_control {n : Nat} (control : n < 32) (rest : List Char) :
    readCodeUnit (['0', '0'] ++ twoHexDigits n ++ rest) = .ok (n, rest) := by
  have digits : (('0' :: '0' :: twoHexDigits n ++ rest).take 4).filterMap hexValue? = [0, 0, n / 16, n % 16] := by
    change [_, _, _, _].filterMap hexValue? = _
    simp only [List.filterMap_cons, hexValue?_digitChar (show n / 16 < 16 by omega),
      hexValue?_digitChar (show n % 16 < 16 by omega)]
    rfl
  have value : [0, 0, n / 16, n % 16].foldl (fun n d => 16 * n + d) 0 = n := by
    change 16 * (16 * (16 * (16 * 0 + 0) + 0) + n / 16) + n % 16 = n
    omega
  change readCodeUnit ('0' :: '0' :: twoHexDigits n ++ rest) = _
  simp only [readCodeUnit, digits]
  rw [value]
  rfl

theorem readEscapedChar_control {c : Char} (control : c.toNat < 32) (rest : List Char) :
    readEscapedChar (['0', '0'] ++ twoHexDigits c.toNat ++ rest) = .ok (c, rest) := by
  have notLow : ¬(0xdc00 ≤ c.toNat ∧ c.toNat ≤ 0xdfff) := by omega
  have notHigh : ¬(0xd800 ≤ c.toNat ∧ c.toNat ≤ 0xdbff) := by omega
  rw [readEscapedChar, readCodeUnit_control control]
  change (if 0xdc00 ≤ c.toNat ∧ c.toNat ≤ 0xdfff then _ else _) = _
  rw [if_neg notLow, if_neg notHigh, Char.ofNat_toNat]
  rfl

theorem readChars_numeric {c : Char} {cs rest : List Char} (read : readEscapedChar cs = .ok (c, rest)) (fuel : Nat)
    (done : List Char) : readChars (fuel + 1) done ('\\' :: 'u' :: cs) = readChars fuel (c :: done) rest := by
  rw [readChars.eq_def]
  dsimp only
  rw [if_neg (by decide), if_pos rfl, if_pos rfl, read, ok_bind]

/-- Each character takes one step to read, however it is written. -/
theorem readChars_escaped (fuel : Nat) (done : List Char) (c : Char) (rest : List Char) :
    readChars (fuel + 1) done (escaped c ++ rest) = readChars fuel (c :: done) rest := by
  unfold escaped
  split
  · next quote => subst quote; rfl
  split
  · next backslash => subst backslash; rfl
  split
  · next newline => subst newline; rfl
  split
  · next carriage => subst carriage; rfl
  split
  · next tab => subst tab; rfl
  split
  · next backspace => subst backspace; rfl
  split
  · next feed => subst feed; rfl
  split
  · next control => exact readChars_numeric (readEscapedChar_control control rest) fuel done
  · next notQuote notBackslash _ _ _ _ _ notControl =>
    rw [List.singleton_append, readChars.eq_def]
    dsimp only
    rw [if_neg notQuote, if_neg notBackslash, if_neg notControl]

theorem readChars_quoted (chars : List Char) (fuel : Nat) (done rest : List Char) :
    readChars (fuel + chars.length + 1) done (chars.flatMap escaped ++ '"' :: rest) =
      .ok (done.reverse ++ chars, rest) := by
  induction chars generalizing done with
  | nil =>
    rw [List.append_nil]
    rfl
  | cons c chars ih =>
    rw [List.flatMap_cons, List.append_assoc, List.length_cons, ← Nat.add_assoc, readChars_escaped, ih,
      List.reverse_cons, List.append_assoc, List.singleton_append]

theorem escaped_ne_nil (c : Char) : escaped c ≠ [] := by
  unfold escaped
  repeat' split
  all_goals exact List.cons_ne_nil _ _

theorem length_escaped (chars : List Char) : chars.length ≤ (chars.flatMap escaped).length := by
  induction chars with
  | nil => exact Nat.le_refl 0
  | cons c chars ih =>
    have one : 0 < (escaped c).length := List.length_pos_iff.mpr (escaped_ne_nil c)
    rw [List.flatMap_cons, List.length_append, List.length_cons]
    omega

/-- Every text is read back from its quoted form, whatever characters are in it. -/
theorem readString_text (s : String) (rest : List Char) :
    readString (s.toList.flatMap escaped ++ '"' :: rest) = .ok (s, rest) := by
  have enough := length_escaped s.toList
  have fuel : (s.toList.flatMap escaped ++ '"' :: rest).length + 1 =
      (s.toList.flatMap escaped).length - s.toList.length + rest.length + 1 + s.toList.length + 1 := by
    rw [List.length_append, List.length_cons]
    omega
  rw [readString, fuel, readChars_quoted]
  change Except.ok (String.ofList s.toList, rest) = _
  rw [String.ofList_toList]

end Tablature.Json
