import Mathlib.Data.List.Forall2
import Tablature.CommandLine.Arguments
import Tablature.Proofs.Json.Numbers

namespace Tablature

section Indices

variable {digits part : List Char} {n : Nat}

/-- A run of digits, zeros in front or not, for a number of 64 bits. -/
structure IsRun (digits : List Char) (n : Nat) : Prop where
  filled : digits ≠ []
  numeric : ∀ c ∈ digits, isDigit c = true
  value : digitsValue digits = n
  fits : n < 0x10000000000000000

/-- How an index may be written: as a run of digits, perhaps after one plus sign. -/
inductive WritesIndex : List Char → Nat → Prop
  | bare {digits : List Char} {n : Nat} (run : IsRun digits n) : WritesIndex digits n
  | plus {digits : List Char} {n : Nat} (run : IsRun digits n) : WritesIndex ('+' :: digits) n

theorem isRun_iff : (if digits.isEmpty || !digits.all isDigit then none
    else if digitsValue digits < 0x10000000000000000 then some (digitsValue digits) else none) = some n ↔
      IsRun digits n := by
  constructor
  · intro read
    split at read
    · cases read
    · next fine =>
      split at read
      · next fits =>
        cases read
        rw [Bool.or_eq_true, not_or, List.isEmpty_iff, Bool.not_eq_true', Bool.not_eq_false, List.all_eq_true] at fine
        exact ⟨fine.1, fine.2, rfl, fits⟩
      · cases read
  · rintro ⟨filled, numeric, rfl, fits⟩
    have fine : ¬(digits.isEmpty || !digits.all isDigit) = true := by
      rw [Bool.or_eq_true, not_or, List.isEmpty_iff, Bool.not_eq_true', Bool.not_eq_false, List.all_eq_true]
      exact ⟨filled, numeric⟩
    rw [if_neg fine, if_pos fits]

theorem readIndex_eq_some_iff : readIndex part = some n ↔ WritesIndex part n := by
  by_cases plus : ∃ digits, part = '+' :: digits
  · obtain ⟨digits, rfl⟩ := plus
    refine isRun_iff.trans ⟨.plus, ?_⟩
    rintro (run | run)
    · cases run.numeric '+' List.mem_cons_self
    · exact run
  · have bare : readIndex part = some n ↔ IsRun part n := by
      rw [← isRun_iff]
      unfold readIndex
      split
      · next digits => exact absurd ⟨digits, rfl⟩ plus
      · rfl
    refine bare.trans ⟨.bare, ?_⟩
    rintro (run | run)
    · exact run
    · exact absurd ⟨_, rfl⟩ plus

theorem WritesIndex.colon_not_mem (writes : WritesIndex part n) : ':' ∉ part := by
  have digits {run : List Char} (isRun : IsRun run n) : ':' ∉ run := fun inside => by cases isRun.numeric ':' inside
  cases writes with
  | bare run => exact digits run
  | plus run => exact List.not_mem_cons_of_ne_of_not_mem (by decide) (digits run)

theorem writesIndex_toString (fits : n < 0x10000000000000000) : WritesIndex (toString n).toList n := by
  have printed : (toString n).toList = Nat.toDigits 10 n := String.toList_ofList
  rw [printed]
  refine .bare ⟨Nat.toDigits_ne_nil, fun c member => Json.isDigit_toDigits member, Json.digitsValue_toDigits n, fits⟩

end Indices

theorem splitColons_eq (cs : List Char) : splitColons cs = cs.splitOn ':' := by
  fun_induction splitColons cs with
  | case1 => rfl
  | case2 cs ih =>
    rw [List.splitOn_cons_eq_if_modifyHead, ih]
    rfl
  | case3 c cs other part parts first ih =>
    have otherBeq : ¬(c == ':') = true := fun same => other (beq_iff_eq.mp same)
    rw [List.splitOn_cons_eq_if_modifyHead, if_neg otherBeq, ← ih, first, List.modifyHead_cons]
  | case4 c cs other none ih =>
    rw [none] at ih
    exact absurd ih.symm (List.splitOn_ne_nil ':' cs)

theorem mapM_some_iff {α β : Type} {read : α → Option β} {items : List α} {values : List β} :
    items.mapM read = some values ↔ List.Forall₂ (fun item value => read item = some value) items values := by
  induction items generalizing values with
  | nil =>
    rw [List.mapM_nil, List.forall₂_nil_left_iff]
    exact Option.some_inj.trans eq_comm
  | cons item items ih =>
    rw [List.mapM_cons, List.forall₂_cons_left_iff]
    simp only [Option.bind_eq_bind, Option.bind_eq_some_iff, Option.pure_def, Option.some_inj, ih]
    constructor
    · rintro ⟨value, read, rest, each, rfl⟩
      exact ⟨value, rest, read, each, rfl⟩
    · rintro ⟨value, rest, read, each, rfl⟩
      exact ⟨value, read, rest, each, rfl⟩

namespace Address

variable {address : Address} {source : String}

/-- The indices of an address from the outside in. -/
def indices (address : Address) : List Nat :=
  address.sectionIndex :: (address.subsectionIndex.toList ++ address.sequenceIndex.toList)

/-- A sequence stands in a subsection. -/
def IsNested (address : Address) : Prop :=
  address.sequenceIndex.isSome = true → address.subsectionIndex.isSome = true

/-- An address as it is written, colons between its indices. -/
def text (address : Address) : String :=
  ":".intercalate (address.indices.map toString)

/-- Its indices are numbers of 64 bits. -/
def Fits (address : Address) : Prop :=
  ∀ n ∈ address.indices, n < 0x10000000000000000

instance : Decidable address.Fits :=
  inferInstanceAs (Decidable (∀ n ∈ address.indices, n < 0x10000000000000000))

/-- The text has the indices of the address between its colons. -/
def Names (source : String) (address : Address) : Prop :=
  address.IsNested ∧ ∃ parts, source.toList = [':'].intercalate parts ∧ List.Forall₂ WritesIndex parts address.indices

/-- The address of some indices. -/
def ofIndices? : List Nat → Option Address
  | [s] => some ⟨s, none, none⟩
  | [s, t] => some ⟨s, some t, none⟩
  | [s, t, q] => some ⟨s, some t, some q⟩
  | _ => none

theorem ofText?_eq (source : String) :
    ofText? source = ((source.toList.splitOn ':').mapM readIndex).bind ofIndices? := by
  rw [← splitColons_eq]
  rfl

theorem ofIndices?_eq_some_iff {indices : List Nat} :
    ofIndices? indices = some address ↔ address.IsNested ∧ address.indices = indices := by
  constructor
  · intro found
    unfold ofIndices? at found
    split at found
    · cases found
      exact ⟨nofun, rfl⟩
    · cases found
      exact ⟨nofun, rfl⟩
    · cases found
      exact ⟨fun _ => rfl, rfl⟩
    · cases found
  · rintro ⟨nested, rfl⟩
    obtain ⟨s, t?, q?⟩ := address
    cases t? with
    | none =>
      cases q? with
      | none => rfl
      | some q => cases nested rfl
    | some t => cases q? <;> rfl

theorem ofText?_eq_some_iff : ofText? source = some address ↔ Names source address := by
  rw [ofText?_eq, Option.bind_eq_some_iff]
  simp only [mapM_some_iff, readIndex_eq_some_iff, ofIndices?_eq_some_iff]
  constructor
  · rintro ⟨_, writes, nested, rfl⟩
    exact ⟨nested, _, (List.intercalate_splitOn ':').symm, writes⟩
  · rintro ⟨nested, parts, joined, writes⟩
    refine ⟨address.indices, ?_, nested, rfl⟩
    have free : ∀ part ∈ parts, ':' ∉ part :=
      ((List.forall₂_and_left parts address.indices).mp (writes.imp fun _ _ index => ⟨index.colon_not_mem, index⟩)).1
    have filled : parts ≠ [] := by
      rintro rfl
      cases writes
    rwa [joined, List.splitOn_intercalate ':' free filled]

theorem ofText?_text (nested : address.IsNested) (fits : address.Fits) : ofText? address.text = some address := by
  refine ofText?_eq_some_iff.mpr ⟨nested, (address.indices.map toString).map String.toList, ?_, ?_⟩
  · rw [text, String.toList_intercalate]
    rfl
  · rw [List.map_map, List.forall₂_map_left_iff, List.forall₂_same]
    exact fun n member => writesIndex_toString (fits n member)

/-- An address is read from exactly the texts that name it: one to three indices in order, a sequence only in a
subsection, colons between them. Any other text is refused with itself in the message. What was written is read
back. -/
theorem addresses_exact :
    (∀ source address, ofText? source = some address ↔ Names source address) ∧
      (∀ source, (∀ address, ¬Names source address) → ∀ a positional rest,
        Arguments.parseFrom a positional ("--preview" :: source :: rest) = .error (.badAddress source)) ∧
      (∀ source, (ArgumentError.badAddress source).message = "Invalid preview address: " ++ source) ∧
      ∀ address, IsNested address → Fits address → ofText? address.text = some address := by
  refine ⟨fun source address => ofText?_eq_some_iff, fun source nameless a positional rest => ?_, fun _ => rfl,
    fun address nested fits => ofText?_text nested fits⟩
  have unread : ofText? source = none :=
    Option.eq_none_iff_forall_ne_some.mpr fun address read => nameless address (ofText?_eq_some_iff.mp read)
  rw [Arguments.parseFrom, unread]

theorem addresses_exact_verse :
    text ⟨2, some 1, some 0⟩ = "2:1:0" ∧ ofText? "2:1:0" = some ⟨2, some 1, some 0⟩ ∧
      Arguments.parse ["--preview", "1::2"] = .error (.badAddress "1::2") := by
  obtain ⟨reads, refuses, _, again⟩ := addresses_exact
  have unread : ofText? "1::2" = none := by decide
  refine ⟨by decide, again ⟨2, some 1, some 0⟩ (fun _ => rfl) (by decide),
    refuses "1::2" (fun address names => ?_) {} [] []⟩
  have read := (reads "1::2" address).mpr names
  rw [unread] at read
  cases read

end Address

end Tablature
