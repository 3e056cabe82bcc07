import Mathlib.Data.List.Forall2
import Tablature.Proofs.Json.Values

namespace Tablature.Json

variable {α σ : Type}

/-- The text can begin an item of a list or object: with something solid that does not close the list. -/
def Opens (text : List Char) : Prop :=
  ∃ c cs, text = c :: cs ∧ isSpace c = false ∧ c ≠ ']'

/-- The reader takes the text, after any white space, for this value, whatever may follow it. -/
structure Reads (read : List Char → Except Fault (α × List Char)) (text : List Char) (a : α) : Prop where
  opens : Opens text
  reads : ∀ blanks rest, AllSpace blanks → EndsNumber rest → read (blanks ++ text ++ rest) = .ok (a, rest)

theorem Reads.bare {read : List Char → Except Fault (α × List Char)} {text : List Char} {a : α}
    (reads : Reads read text a) {rest : List Char} (ends : EndsNumber rest) : read (text ++ rest) = .ok (a, rest) :=
  reads.reads [] rest .nil ends

section Items

variable {item : List Char → Except Fault (α × List Char)} {before close text rest : List Char}

theorem nextItem_close (spaces : AllSpace close) (first : Bool) (rest : List Char) :
    nextItem first (close ++ ']' :: rest) = .ok (none, rest) := by
  rw [nextItem, skipSpace_to spaces rfl]
  rfl

theorem nextItem_first (spaces : AllSpace before) (opens : Opens text) (rest : List Char) :
    nextItem true (before ++ text ++ rest) = .ok (some (text ++ rest), []) := by
  obtain ⟨c, cs, rfl, solid, other⟩ := opens
  rw [nextItem, List.append_assoc, List.cons_append, skipSpace_to spaces solid]
  simp only [if_neg other, if_true]

theorem nextItem_comma (spaces : AllSpace before) (opens : Opens text) (rest : List Char) :
    nextItem false (',' :: before ++ text ++ rest) = .ok (some (text ++ rest), []) := by
  obtain ⟨c, cs, rfl, solid, other⟩ := opens
  have comma : isSpace ',' = false := rfl
  rw [nextItem, List.append_assoc, List.cons_append, List.cons_append, skipSpace_cons comma]
  dsimp only
  rw [if_neg (by decide), if_neg Bool.false_ne_true, if_pos rfl, skipSpace_to spaces solid]
  dsimp only
  rw [if_neg other]

theorem readItems_end {first : Bool} {cs : List Char} (next : nextItem first cs = .ok (none, rest)) (fuel : Nat)
    (done : List α) : readItems item (fuel + 1) first done cs = .ok (done.reverse, rest) := by
  rw [readItems, next]
  rfl

theorem readItems_item {first : Bool} {cs : List Char} {a : α} (next : nextItem first cs = .ok (some text, []))
    (read : item text = .ok (a, rest)) (fuel : Nat) (done : List α) :
    readItems item (fuel + 1) first done cs = readItems item fuel false (a :: done) rest := by
  rw [readItems, next, ok_bind]
  dsimp only
  rw [read]
  rfl

/-- The items of a list are read one after the other up to its end. -/
theorem readItems_joined {texts : List (List Char)} {values : List α} (each : List.Forall₂ (Reads item) texts values)
    (spaces : AllSpace before) (closing : AllSpace close) (rest : List Char) (done : List α) {fuel : Nat}
    (enough : texts.length < fuel) :
    readItems item fuel false done (joined before texts ++ close ++ ']' :: rest) =
      .ok (done.reverse ++ values, rest) := by
  induction each generalizing done fuel with
  | nil =>
    obtain ⟨fuel, rfl⟩ := Nat.exists_eq_succ_of_ne_zero (Nat.ne_of_gt enough)
    rw [joined, List.nil_append, readItems_end (nextItem_close closing false rest), List.append_nil]
  | @cons text a texts values reads _ ih =>
    obtain ⟨fuel, rfl⟩ := Nat.exists_eq_succ_of_ne_zero (Nat.ne_of_gt (Nat.zero_lt_of_lt enough))
    have ends := ends_joined before (ends_spaces closing (ends_bracket rest)) texts
    have later := ih (a :: done) (Nat.lt_of_succ_lt_succ enough)
    rw [List.append_assoc] at later
    have next := nextItem_comma spaces reads.opens (joined before texts ++ (close ++ ']' :: rest))
    rw [joined, List.append_assoc, List.append_assoc, readItems_item next (reads.bare ends), later, List.reverse_cons,
      List.append_assoc, List.singleton_append]

variable {layout : Layout} (spaced : layout.Spaced)

include spaced

/-- A list after its opening bracket. -/
theorem readItems_interior {texts : List (List Char)} {values : List α} (each : List.Forall₂ (Reads item) texts values)
    (depth : Nat) (rest : List Char) :
    readItems item ((interior ']' layout depth texts ++ rest).length + 1) true []
      (interior ']' layout depth texts ++ rest) = .ok (values, rest) := by
  have enough : texts.length < (interior ']' layout depth texts ++ rest).length + 1 := by
    have parts := length_interior ']' layout depth texts
    rw [List.length_append]
    omega
  generalize (interior ']' layout depth texts ++ rest).length = fuel at enough
  cases each with
  | nil =>
    have next := nextItem_close .nil true rest
    rw [interior, List.singleton_append, ← List.nil_append (']' :: rest), readItems_end next]
    rfl
  | @cons text a texts values reads each =>
    have closing := spaced.beforeClose depth
    have ends := ends_joined (layout.beforeItem depth) (ends_spaces closing (ends_bracket rest)) texts
    have later := readItems_joined each (spaced.beforeItem depth) closing rest [a] (Nat.lt_of_succ_lt_succ enough)
    rw [List.append_assoc] at later
    have next := nextItem_first (spaced.beforeItem depth) reads.opens
      (joined (layout.beforeItem depth) texts ++ (layout.beforeClose depth ++ ']' :: rest))
    rw [interior, List.append_assoc, List.append_assoc, List.append_assoc, List.singleton_append,
      readItems_item next (reads.bare ends)]
    exact later

end Items

section Fields

variable {field : σ → String → List Char → Except Fault (σ × List Char)} {before close text rest : List Char}

/-- The value of a field, read where its colon stands, takes the state on. -/
def Sets (field : σ → String → List Char → Except Fault (σ × List Char)) (key : String) (text : List Char)
    (state next : σ) : Prop :=
  ∀ blanks rest, AllSpace blanks → EndsNumber rest →
    field state key (':' :: blanks ++ text ++ rest) = .ok (next, rest)

inductive SetsAll (field : σ → String → List Char → Except Fault (σ × List Char)) :
    List (String × List Char) → σ → σ → Prop
  | nil {state} : SetsAll field [] state state
  | cons {key text fields state next final} : Sets field key text state next → SetsAll field fields next final →
      SetsAll field ((key, text) :: fields) state final

theorem nextKey_close (spaces : AllSpace close) (first : Bool) (rest : List Char) :
    nextKey first (close ++ '\x7d' :: rest) = .ok (none, rest) := by
  rw [nextKey, skipSpace_to spaces rfl]
  rfl

theorem textChars_append (key : String) (rest : List Char) :
    textChars key ++ rest = '"' :: (key.toList.flatMap escaped ++ '"' :: rest) := by
  simp only [textChars, List.cons_append, List.append_assoc, List.nil_append]

theorem nextKey_first (spaces : AllSpace before) (key : String) (rest : List Char) :
    nextKey true (before ++ textChars key ++ rest) = .ok (some key, rest) := by
  have quote : isSpace '"' = false := rfl
  rw [nextKey, List.append_assoc, textChars_append, skipSpace_to spaces quote]
  dsimp only
  rw [if_neg (by decide), if_pos rfl, if_pos rfl, readString_text]
  rfl

theorem nextKey_comma (spaces : AllSpace before) (key : String) (rest : List Char) :
    nextKey false (',' :: before ++ textChars key ++ rest) = .ok (some key, rest) := by
  have comma : isSpace ',' = false := rfl
  have quote : isSpace '"' = false := rfl
  rw [nextKey, List.append_assoc, List.cons_append, skipSpace_cons comma, textChars_append]
  dsimp only
  rw [if_neg (by decide), if_neg Bool.false_ne_true, if_pos rfl, skipSpace_to spaces quote]
  dsimp only
  rw [if_pos rfl, readString_text]
  rfl

theorem readFields_end {first : Bool} {cs : List Char} (next : nextKey first cs = .ok (none, rest)) (fuel : Nat)
    (state : σ) : readFields field (fuel + 1) first state cs = .ok (state, rest) := by
  rw [readFields, next]
  rfl

theorem readFields_field {first : Bool} {cs : List Char} {key : String} {state next : σ}
    (isKey : nextKey first cs = .ok (some key, text)) (read : field state key text = .ok (next, rest)) (fuel : Nat) :
    readFields field (fuel + 1) first state cs = readFields field fuel false next rest := by
  rw [readFields, isKey, ok_bind]
  dsimp only
  rw [read]
  rfl

variable {layout : Layout} (spaced : layout.Spaced)

include spaced

/-- The fields of an object are taken one after the other up to its end. -/
theorem readFields_joined {fields : List (String × List Char)} {state final : σ}
    (each : SetsAll field fields state final) (depth : Nat) (rest : List Char) {fuel : Nat}
    (enough : fields.length < fuel) :
    readFields field fuel false state (joined (layout.beforeItem depth) (fields.map (fieldChars layout)) ++
      layout.beforeClose depth ++ '\x7d' :: rest) = .ok (final, rest) := by
  have closing := spaced.beforeClose depth
  induction each generalizing fuel with
  | nil =>
    obtain ⟨fuel, rfl⟩ := Nat.exists_eq_succ_of_ne_zero (Nat.ne_of_gt enough)
    rw [List.map_nil, joined, List.nil_append, readFields_end (nextKey_close closing false rest)]
  | @cons key text fields state next final sets _ ih =>
    obtain ⟨fuel, rfl⟩ := Nat.exists_eq_succ_of_ne_zero (Nat.ne_of_gt (Nat.zero_lt_of_lt enough))
    have ends := ends_joined (layout.beforeItem depth) (ends_spaces closing (ends_brace rest))
      (fields.map (fieldChars layout))
    have later := ih (Nat.lt_of_succ_lt_succ enough)
    rw [List.append_assoc] at later
    have isKey := nextKey_comma (spaced.beforeItem depth) key (':' :: layout.afterColon ++ text ++
      (joined (layout.beforeItem depth) (fields.map (fieldChars layout)) ++
        (layout.beforeClose depth ++ '\x7d' :: rest)))
    rw [← later, ← readFields_field isKey (sets layout.afterColon _ spaced.afterColon ends)]
    simp only [List.map_cons, joined, fieldChars, List.append_assoc, List.cons_append]

/-- An object after its opening brace. -/
theorem readFields_interior {fields : List (String × List Char)} {state final : σ}
    (each : SetsAll field fields state final) (depth : Nat) (rest : List Char) :
    readFields field ((interior '\x7d' layout depth (fields.map (fieldChars layout)) ++ rest).length + 1) true state
      (interior '\x7d' layout depth (fields.map (fieldChars layout)) ++ rest) = .ok (final, rest) := by
  have enough : fields.length <
      (interior '\x7d' layout depth (fields.map (fieldChars layout)) ++ rest).length + 1 := by
    have parts := length_interior '\x7d' layout depth (fields.map (fieldChars layout))
    rw [List.length_map] at parts
    rw [List.length_append]
    omega
  generalize (interior '\x7d' layout depth (fields.map (fieldChars layout)) ++ rest).length = fuel at enough
  cases each with
  | nil =>
    have next := nextKey_close .nil true rest
    rw [List.map_nil, interior, List.singleton_append, ← List.nil_append ('\x7d' :: rest), readFields_end next]
  | @cons key text fields state next final sets each =>
    have closing := spaced.beforeClose depth
    have ends := ends_joined (layout.beforeItem depth) (ends_spaces closing (ends_brace rest))
      (fields.map (fieldChars layout))
    have later := readFields_joined spaced each depth rest (Nat.lt_of_succ_lt_succ enough)
    rw [List.append_assoc] at later
    have isKey := nextKey_first (spaced.beforeItem depth) key (':' :: layout.afterColon ++ text ++
      (joined (layout.beforeItem depth) (fields.map (fieldChars layout)) ++
        (layout.beforeClose depth ++ '\x7d' :: rest)))
    rw [← later, ← readFields_field isKey (sets layout.afterColon _ spaced.afterColon ends)]
    simp only [List.map_cons, interior, fieldChars, List.append_assoc, List.cons_append, List.nil_append]

end Fields

end Tablature.Json
