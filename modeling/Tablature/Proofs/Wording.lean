import Tablature.Diagnostic
import Tablature.Proofs.Json.Texts

namespace Tablature

/-- A problem as it is told: how severe it is, of which kind, in which words, and where. -/
def Diagnostic.told (p : Diagnostic) : Severity × DiagnosticKind × String × Option Location :=
  (p.severity, p.kind, p.message, p.location)

section Quotes

/-- The number that hexadecimal digits stand for. -/
def hexNumber (digits : List Char) : Nat :=
  digits.foldl (fun n c => 16 * n + (Json.hexValue? c).getD 0) 0

/-- Reads one character of a quoted text back. There is none at its closing quote. -/
def unquoteChar : List Char → Option (Char × List Char)
  | '\\' :: 'n' :: rest => some ('\n', rest)
  | '\\' :: 'r' :: rest => some ('\r', rest)
  | '\\' :: 't' :: rest => some ('\t', rest)
  | '\\' :: '0' :: rest => some (Char.ofNat 0, rest)
  | '\\' :: 'u' :: '\x7b' :: rest =>
    some (Char.ofNat (hexNumber (rest.takeWhile (· != '\x7d'))), (rest.dropWhile (· != '\x7d')).tail)
  | '\\' :: c :: rest => some (c, rest)
  | '"' :: _ => none
  | c :: rest => some (c, rest)
  | [] => none

theorem hexDigits_step {n : Nat} (large : 16 ≤ n) : hexDigits n = hexDigits (n / 16) ++ [Nat.digitChar (n % 16)] :=
  Nat.toDigits_of_base_le (by decide) large

theorem hexNumber_hexDigits (n : Nat) : hexNumber (hexDigits n) = n := by
  induction n using Nat.strongRecOn with
  | ind n ih =>
    by_cases small : n < 16
    · rw [hexDigits, Nat.toDigits_of_lt_base small]
      simp only [hexNumber, List.foldl_cons, List.foldl_nil, Json.hexValue?_digitChar small, Option.getD_some]
      omega
    · have digit : n % 16 < 16 := Nat.mod_lt n (by decide)
      have front := ih (n / 16) (by omega)
      rw [hexNumber] at front
      rw [hexDigits_step (by omega), hexNumber, List.foldl_append, front]
      simp only [List.foldl_cons, List.foldl_nil, Json.hexValue?_digitChar digit, Option.getD_some]
      omega

theorem hexDigits_ne_brace {n : Nat} {c : Char} (member : c ∈ hexDigits n) : (c != '\x7d') = true := by
  have single {d : Nat} (small : d < 16) : (Nat.digitChar d != '\x7d') = true := by
    revert d
    decide
  induction n using Nat.strongRecOn with
  | ind n ih =>
    by_cases small : n < 16
    · rw [hexDigits, Nat.toDigits_of_lt_base small] at member
      rw [List.mem_singleton.mp member]
      exact single small
    · rw [hexDigits_step (by omega)] at member
      rcases List.mem_append.mp member with inFront | isLast
      · exact ih (n / 16) (by omega) inFront
      · rw [List.mem_singleton.mp isLast]
        exact single (Nat.mod_lt n (by decide))

theorem unquoteChar_plain {c : Char} (notQuote : c ≠ '"') (notBackslash : c ≠ '\\') (rest : List Char) :
    unquoteChar (c :: rest) = some (c, rest) := by
  unfold unquoteChar
  split <;> simp_all

theorem unquoteChar_number (c : Char) (rest : List Char) :
    unquoteChar (['\\', 'u', '\x7b'] ++ hexDigits c.toNat ++ ['\x7d'] ++ rest) = some (c, rest) := by
  have digits : (hexDigits c.toNat ++ '\x7d' :: rest).takeWhile (· != '\x7d') = hexDigits c.toNat := by
    rw [List.takeWhile_append_of_pos fun _ => hexDigits_ne_brace, List.takeWhile_cons_of_neg (by decide),
      List.append_nil]
  have after : (hexDigits c.toNat ++ '\x7d' :: rest).dropWhile (· != '\x7d') = '\x7d' :: rest := by
    rw [List.dropWhile_append_of_pos fun _ => hexDigits_ne_brace, List.dropWhile_cons_of_neg (by decide)]
  have read : unquoteChar ('\\' :: 'u' :: '\x7b' :: (hexDigits c.toNat ++ '\x7d' :: rest)) =
      some (Char.ofNat (hexNumber (hexDigits c.toNat)), rest) := by
    simp only [unquoteChar, digits, after, List.tail_cons]
  rw [hexNumber_hexDigits, Char.ofNat_toNat] at read
  rw [List.append_assoc, List.append_assoc, List.singleton_append]
  exact read

/-- A character is read back from how it stands between quotes. -/
theorem unquoteChar_quotedChar (c : Char) (rest : List Char) : unquoteChar (quotedChar c ++ rest) = some (c, rest) := by
  unfold quotedChar
  split
  · next quote => subst quote; rfl
  split
  · next backslash => subst backslash; rfl
  split
  · next newline => subst newline; rfl
  split
  · next carriage => subst carriage; rfl
  split
  · next tab => subst tab; rfl
  split
  · next zero =>
    have same : c = Char.ofNat 0 := by rw [← zero, Char.ofNat_toNat]
    subst same
    rfl
  split
  · exact unquoteChar_number c rest
  · next notQuote notBackslash _ _ _ _ _ => exact unquoteChar_plain notQuote notBackslash rest

/-- Texts that are quoted alike, whatever follows the closing quotes, are the same. -/
theorem quotedChars_inj {cs ds front back : List Char}
    (same : cs.flatMap quotedChar ++ '"' :: front = ds.flatMap quotedChar ++ '"' :: back) : cs = ds ∧ front = back := by
  have closes (rest : List Char) : unquoteChar ('"' :: rest) = none := rfl
  have read := congrArg unquoteChar same
  induction cs generalizing ds with
  | nil =>
    cases ds with
    | nil =>
      obtain ⟨_, rest⟩ := List.cons.inj same
      exact ⟨rfl, rest⟩
    | cons d ds =>
      rw [List.flatMap_cons, List.append_assoc, unquoteChar_quotedChar] at read
      rw [List.flatMap_nil, List.nil_append, closes] at read
      cases read
  | cons c cs ih =>
    cases ds with
    | nil =>
      rw [List.flatMap_cons, List.append_assoc, unquoteChar_quotedChar] at read
      rw [List.flatMap_nil, List.nil_append, closes] at read
      cases read
    | cons d ds =>
      rw [List.flatMap_cons, List.flatMap_cons, List.append_assoc, List.append_assoc, unquoteChar_quotedChar,
        unquoteChar_quotedChar] at read
      obtain ⟨rfl, rest⟩ := Prod.mk.inj (Option.some.inj read)
      obtain ⟨rfl, after⟩ := ih rest (congrArg unquoteChar rest)
      exact ⟨rfl, after⟩

theorem toList_quoted (s : String) : (quoted s).toList = '"' :: (s.toList.flatMap quotedChar ++ ['"']) :=
  String.toList_ofList

theorem quoted_inj {s t : String} (same : quoted s = quoted t) : s = t := by
  have chars := congrArg String.toList same
  rw [toList_quoted, toList_quoted] at chars
  exact String.toList_injective (quotedChars_inj (List.cons.inj chars).2).1

/-- The quoted word in the same sentence makes the difference. -/
theorem sentence_inj {before after s t : String} (same : before ++ quoted s ++ after = before ++ quoted t ++ after) :
    s = t := by
  have chars := congrArg String.toList same
  simp only [String.toList_append, List.append_assoc, List.append_cancel_left_eq] at chars
  exact quoted_inj (String.toList_injective (List.append_cancel_right chars))

end Quotes

/-- The problems that playing may meet on its way. -/
inductive Problem.ArisesInPlay : Problem → Prop
  | unknownLength (tag : String) : ArisesInPlay (.unknownLength tag)
  | timelessLength (tag : String) : ArisesInPlay (.timelessLength tag)
  | missingSection (id : String) : ArisesInPlay (.missingSection id)

theorem unknown_ne_timeless (tag other : String) :
    (Problem.unknownLength tag).message ≠ (Problem.timelessLength other).message := by
  have unknown : (Problem.unknownLength tag).message =
      "Unknown note length " ++ quoted tag ++ ", playing it as a quarter note" := rfl
  have timeless : (Problem.timelessLength other).message =
      quoted other ++ " cannot time a playable unit, playing it as a quarter note" := rfl
  have letter : "Unknown note length ".toList.head? = some 'U' := by decide
  intro same
  have opening := congrArg (fun sentence : String => sentence.toList.head?) same
  simp only [unknown, timeless, String.toList_append, List.append_assoc, List.head?_append, letter, toList_quoted,
    List.head?_cons, Option.some_or] at opening
  cases opening

/-- What playing meets on its way is told apart by how it is told. -/
theorem Diagnostic.told_inj {p q : Diagnostic} (first : p.problem.ArisesInPlay) (second : q.problem.ArisesInPlay)
    (same : p.told = q.told) : p = q := by
  obtain ⟨problem, place⟩ := p
  obtain ⟨other, otherPlace⟩ := q
  obtain ⟨_, kind, message, places⟩ : problem.severity = other.severity ∧ problem.kind = other.kind ∧
      problem.message = other.message ∧ place = otherPlace := by
    simpa only [told, severity, Diagnostic.kind, Diagnostic.message, Prod.mk.injEq] using same
  subst places
  cases first with
  | unknownLength tag =>
    cases second with
    | unknownLength => rw [sentence_inj message]
    | timelessLength => exact absurd message (unknown_ne_timeless _ _)
    | missingSection => cases kind
  | timelessLength tag =>
    cases second with
    | unknownLength => exact absurd message.symm (unknown_ne_timeless _ _)
    | timelessLength => rw [quoted_inj ((String.append_left_inj _).mp message)]
    | missingSection => cases kind
  | missingSection id =>
    cases second with
    | unknownLength => cases kind
    | timelessLength => cases kind
    | missingSection => rw [quoted_inj ((String.append_right_inj _).mp message)]

end Tablature
