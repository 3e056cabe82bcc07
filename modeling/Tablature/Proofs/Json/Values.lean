import Tablature.Json.Reader
import Tablature.Proofs.Json.Numbers
import Tablature.Proofs.Json.Texts

namespace Tablature.Json

section Spaces

def AllSpace (cs : List Char) : Prop :=
  ∀ c ∈ cs, isSpace c = true

/-- A layout that sets the parts of a value apart by white space only. -/
structure Layout.Spaced (layout : Layout) : Prop where
  beforeItem : ∀ depth, AllSpace (layout.beforeItem depth)
  beforeClose : ∀ depth, AllSpace (layout.beforeClose depth)
  afterColon : AllSpace layout.afterColon

theorem AllSpace.nil : AllSpace [] := nofun

theorem lineAt_space (depth : Nat) : AllSpace (lineAt depth) := by
  intro c member
  rcases List.mem_cons.mp member with rfl | member
  · rfl
  · rw [List.eq_of_mem_replicate member]
    rfl

theorem Layout.compact_spaced : Layout.compact.Spaced :=
  ⟨fun _ => .nil, fun _ => .nil, .nil⟩

theorem Layout.indented_spaced : Layout.indented.Spaced where
  beforeItem := fun depth => lineAt_space (depth + 1)
  beforeClose := lineAt_space
  afterColon := by
    intro c member
    rw [List.mem_singleton.mp member]
    rfl

variable {blanks cs rest : List Char} {c : Char}

theorem skipSpace_spaces (spaces : AllSpace blanks) (cs : List Char) : skipSpace (blanks ++ cs) = skipSpace cs :=
  List.dropWhile_append_of_pos spaces

theorem skipSpace_cons (solid : isSpace c = false) (cs : List Char) : skipSpace (c :: cs) = c :: cs := by
  rw [skipSpace, List.dropWhile_cons, solid]
  rfl

theorem skipSpace_to (spaces : AllSpace blanks) (solid : isSpace c = false) (cs : List Char) :
    skipSpace (blanks ++ c :: cs) = c :: cs := by
  rw [skipSpace_spaces spaces, skipSpace_cons solid]

end Spaces

section Endings

variable {blanks rest : List Char} {c : Char}

theorem isSpace_ends (space : isSpace c = true) : isDigit c = false ∧ c ≠ '.' ∧ isExponentMark c = false := by
  have spaces : c = ' ' ∨ c = '\n' ∨ c = '\t' ∨ c = '\r' := by
    simpa only [isSpace, Bool.or_eq_true, decide_eq_true_eq, or_assoc] using space
  rcases spaces with rfl | rfl | rfl | rfl <;> decide

/-- Neither white space nor what stands after it can belong to a number. -/
theorem ends_spaces (spaces : AllSpace blanks) (ends : EndsNumber rest) : EndsNumber (blanks ++ rest) := by
  cases blanks with
  | nil => exact ends
  | cons b blanks =>
    intro c isHead
    cases isHead
    exact isSpace_ends (spaces b List.mem_cons_self)

theorem ends_comma (cs : List Char) : EndsNumber (',' :: cs) := by
  rintro c ⟨⟩
  decide

theorem ends_bracket (cs : List Char) : EndsNumber (']' :: cs) := by
  rintro c ⟨⟩
  decide

theorem ends_brace (cs : List Char) : EndsNumber ('\x7d' :: cs) := by
  rintro c ⟨⟩
  decide

theorem ends_nil : EndsNumber [] := nofun

end Endings

/-- Further parts of a list or object, a comma in front of each. -/
def joined (before : List Char) : List (List Char) → List Char
  | [] => []
  | part :: parts => ',' :: before ++ part ++ joined before parts

/-- A list or object after its opening bracket, by its parts. -/
def interior (closing : Char) (layout : Layout) (depth : Nat) : List (List Char) → List Char
  | [] => [closing]
  | part :: parts =>
    layout.beforeItem depth ++ part ++ joined (layout.beforeItem depth) parts ++ layout.beforeClose depth ++ [closing]

def fieldChars (layout : Layout) (field : String × List Char) : List Char :=
  textChars field.1 ++ ':' :: layout.afterColon ++ field.2

/-- The fields of an object with their values as they are written. -/
def written (layout : Layout) (depth : Nat) (fields : List (String × Json)) : List (String × List Char) :=
  fields.map fun field => (field.1, write layout depth field.2)

section Written

variable (layout : Layout) (depth : Nat)

theorem writeItems_eq (items : List Json) :
    writeItems layout depth items = joined (layout.beforeItem depth) (items.map (write layout (depth + 1))) := by
  induction items with
  | nil => rfl
  | cons item items ih => rw [writeItems, ih, List.map_cons, joined]

theorem write_list (items : List Json) :
    write layout depth (.list items) = '[' :: interior ']' layout depth (items.map (write layout (depth + 1))) := by
  cases items with
  | nil => rfl
  | cons item items => simp only [write, writeItems_eq, List.map_cons, interior, List.cons_append]

theorem writeFields_eq (fields : List (String × Json)) :
    writeFields layout depth fields = joined (layout.beforeItem depth)
      ((written layout (depth + 1) fields).map (fieldChars layout)) := by
  induction fields with
  | nil => rfl
  | cons field fields ih =>
    obtain ⟨key, value⟩ := field
    simp only [writeFields, ih, written, List.map_cons, joined, fieldChars, List.append_assoc, List.cons_append]

theorem write_object (fields : List (String × Json)) :
    write layout depth (.object fields) = '\x7b' :: interior '\x7d' layout depth
      ((written layout (depth + 1) fields).map (fieldChars layout)) := by
  cases fields with
  | nil => rfl
  | cons field fields =>
    obtain ⟨key, value⟩ := field
    simp only [write, writeFields_eq, written, List.map_cons, interior, fieldChars, List.append_assoc,
      List.cons_append]

end Written

theorem length_joined (before : List Char) (parts : List (List Char)) :
    parts.length ≤ (joined before parts).length := by
  induction parts with
  | nil => exact Nat.le_refl 0
  | cons part parts ih =>
    simp only [joined, List.length_append, List.length_cons]
    omega

theorem length_interior (closing : Char) (layout : Layout) (depth : Nat) (parts : List (List Char)) :
    parts.length ≤ (interior closing layout depth parts).length := by
  cases parts with
  | nil => exact Nat.zero_le _
  | cons part parts =>
    have more := length_joined (layout.beforeItem depth) parts
    simp only [interior, List.length_append, List.length_cons, List.length_nil]
    omega

theorem ends_joined (before : List Char) {rest : List Char} (ends : EndsNumber rest) (parts : List (List Char)) :
    EndsNumber (joined before parts ++ rest) := by
  cases parts with
  | nil => exact ends
  | cons part parts => exact ends_comma _

end Tablature.Json
