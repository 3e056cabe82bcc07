import Tablature.Proofs.Json.Readers

namespace Tablature.Json

section Skipping

variable {blanks cs rest : List Char} {c : Char}

theorem skipValue_scalar (spaces : AllSpace blanks) (solid : isSpace c = false)
    (head : skipHead (c :: cs) = .ok (none, rest)) : skipValue (blanks ++ c :: cs) = .ok rest := by
  rw [skipValue, skipRounds, skipSpace_to spaces solid, head]
  rfl

/-- The values that may stand under a key without a meaning. -/
inductive IsLiteral : Json → Prop
  | null : IsLiteral .null
  | bool (value : Bool) : IsLiteral (.bool value)

attribute [simp] IsLiteral.null IsLiteral.bool

theorem IsLiteral.skipped {value : Json} (literal : IsLiteral value) (layout : Layout) (outer : Nat)
    (spaces : AllSpace blanks) (rest : List Char) :
    skipValue (blanks ++ write layout outer value ++ rest) = .ok rest := by
  cases literal with
  | null =>
    rw [write, List.append_assoc]
    exact skipValue_scalar spaces rfl rfl
  | bool value =>
    cases value <;> rw [write, List.append_assoc] <;> exact skipValue_scalar spaces rfl rfl

end Skipping

theorem reads_bool (depth : Nat) (layout : Layout) (outer : Nat) (value : Bool) :
    Reads (readDatum depth) (write layout outer (.bool value)) (.bool value) := by
  cases value <;> rw [write] <;>
    exact reads_scalar rfl (by decide) (by decide) (by decide) (fun _ _ => rfl) depth

section Unset

variable {rest : List Char}

theorem finishFloat_unset (rest : List Char) : finishFloat true 10 (-1) rest = .ok (.float unsetTempo, rest) := by
  have tenth : scale (Float.ofNat 10) (-1) = some 1.0 := by
    rw [scale]
    rfl
  rw [finishFloat, tenth]
  rfl

/-- The number that stands for "no tempo set" may be written with a fraction. -/
theorem readNumber_unset (ends : EndsNumber rest) :
    readNumber true ('1' :: '.' :: '0' :: rest) = .ok (.float unsetTempo, rest) := by
  have fraction : readNumber true ('1' :: '.' :: '0' :: rest) = readFraction true 0 10 1 rest := rfl
  rw [fraction]
  cases rest with
  | nil => exact finishFloat_unset []
  | cons c rest =>
    obtain ⟨notDigit, _, notMark⟩ := ends c rfl
    rw [readFraction, if_neg (by rw [notDigit]; exact Bool.false_ne_true), if_neg (by decide), afterDigits,
      if_neg (by rw [notMark]; exact Bool.false_ne_true)]
    exact finishFloat_unset (c :: rest)

theorem write_unset (layout : Layout) (outer : Nat) : write layout outer (.float (-1.0)) = ['-', '1', '.', '0'] := by
  rw [write]
  rfl

theorem spells_unset : Spells ['-', '1', '.', '0'] (.float unsetTempo) :=
  fun _ ends => congrArg some (readNumber_unset ends)

theorem readDatum_unset (depth : Nat) (layout : Layout) (outer : Nat) :
    Reads (readDatum depth) (write layout outer (.float (-1.0))) (.float unsetTempo) := by
  rw [write_unset]
  exact spells_unset.reads depth

theorem readTempo_unset (layout : Layout) (outer : Nat) :
    Reads readTempo (write layout outer (.float (-1.0))) none := by
  rw [write_unset]
  exact spells_unset.readsTempo rfl

end Unset

end Tablature.Json
