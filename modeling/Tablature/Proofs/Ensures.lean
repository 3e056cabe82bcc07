import Tablature.Datum.Schema
import Tablature.Document.Decode

namespace Tablature

variable {ε ε' α β σ : Type} {P : α → Prop} {Q : β → Prop} {I : σ → Prop}

/-- What comes out of two steps came out of the first and went into the second. Later proofs take an outcome apart
by this, one step after the other, and never unfold a step. -/
theorem bind_eq_ok_iff {outcome : Except ε α} {next : α → Except ε β} {b : β} :
    outcome >>= next = .ok b ↔ ∃ a, outcome = .ok a ∧ next a = .ok b := by
  cases outcome with
  | error e => exact ⟨nofun, fun ⟨_, failed, _⟩ => nomatch failed⟩
  | ok a =>
    refine ⟨fun came => ⟨a, rfl, came⟩, ?_⟩
    rintro ⟨_, ⟨rfl⟩, came⟩
    exact came

/-- Whatever comes out, if anything does, has the property. -/
def Ensures (P : α → Prop) (outcome : Except ε α) : Prop :=
  ∀ a, outcome = .ok a → P a

namespace Ensures

theorem ok {a : α} (holds : P a) : Ensures P (.ok a : Except ε α) := by
  intro b same
  cases same
  exact holds

theorem error (e : ε) : Ensures P (.error e) := nofun

theorem trivial (outcome : Except ε α) : Ensures (fun _ => True) outcome := fun _ _ => True.intro

theorem bind {outcome : Except ε α} {next : α → Except ε β} (first : Ensures P outcome)
    (second : ∀ a, P a → Ensures Q (next a)) : Ensures Q (outcome >>= next) := by
  cases outcome with
  | error e => exact error e
  | ok a => exact second a (first a rfl)

/-- What comes first matters only if it fails. -/
theorem after (outcome : Except ε α) {next : α → Except ε β} (second : ∀ a, Ensures Q (next a)) :
    Ensures Q (outcome >>= next) :=
  (trivial outcome).bind fun a _ => second a

theorem map {outcome : Except ε α} {f : α → β} (each : Ensures (Q ∘ f) outcome) : Ensures Q (f <$> outcome) := by
  cases outcome with
  | error e => exact error e
  | ok a => exact ok (each a rfl)

theorem mapError {outcome : Except ε α} {f : ε → ε'} (same : Ensures P outcome) :
    Ensures P (outcome.mapError f) := by
  cases outcome with
  | error e => exact error (f e)
  | ok a => exact ok (same a rfl)

theorem mapM {f : β → Except ε α} (each : ∀ b, Ensures P (f b)) (items : List β) :
    Ensures (fun results => ∀ a ∈ results, P a) (items.mapM f) := by
  induction items with
  | nil => exact ok nofun
  | cons b items ih =>
    rw [List.mapM_cons]
    exact (each b).bind fun a holds => ih.bind fun results all => ok (List.forall_mem_cons.mpr ⟨holds, all⟩)

/-- What each step of a fold keeps holds in the end. -/
theorem foldlM {f : α → β → Except ε α} {items : List β} {start : α}
    (step : ∀ a, ∀ b ∈ items, P a → Ensures P (f a b)) (first : P start) : Ensures P (items.foldlM f start) := by
  induction items generalizing start with
  | nil => exact ok first
  | cons b items ih =>
    obtain ⟨here, later⟩ := List.forall_mem_cons.mp fun b member a => step a b member
    rw [List.foldlM_cons]
    exact (here start first).bind fun a holds => ih (fun a b member => later b member a) holds

/-- Steps that come out as other ones do, wherever they succeed, come out the same in succession. -/
theorem bind_same {outcome other : Except ε α} {next onward : α → Except ε β}
    (first : Ensures (fun a => other = .ok a) outcome)
    (second : ∀ a, Ensures (fun b => onward a = .ok b) (next a)) :
    Ensures (fun b => other >>= onward = .ok b) (outcome >>= next) := by
  refine first.bind fun a same => ?_
  rw [same]
  exact second a

/-- A loop whose every step comes out as another one does, wherever it succeeds, comes out as the loop of the
others. -/
theorem foldlM_same {f g : α → β → Except ε α} (step : ∀ a b, Ensures (fun c => g a b = .ok c) (f a b))
    (items : List β) (start : α) : Ensures (fun c => items.foldlM g start = .ok c) (items.foldlM f start) := by
  induction items generalizing start with
  | nil => exact ok rfl
  | cons b items ih =>
    rw [List.foldlM_cons, List.foldlM_cons]
    exact bind_same (step start b) ih

end Ensures

namespace Datum

theorem listOf_ensures {read : Datum → Except Mismatch α} (each : ∀ datum, Ensures P (read datum)) (datum : Datum) :
    Ensures (fun items => ∀ a ∈ items, P a) (datum.listOf read) :=
  .after _ fun items => .mapM each items

section Records

variable {schema : Schema (Setter σ)}

theorem setFields_ensures
    (keeps : ∀ field ∈ schema.fields, ∀ record datum, I record → Ensures I (field.read record datum))
    (entries : List (Datum × Datum)) (record : σ) (seen : List Nat) (start : I record) :
    Ensures I (setFields schema record seen entries) := by
  induction entries generalizing record seen with
  | nil =>
    unfold setFields
    split
    · exact .error _
    · exact .ok start
  | cons entry entries ih =>
    unfold setFields
    refine .after _ fun index => ?_
    split
    · exact ih record seen start
    · split
      · exact ih record seen start
      · next field found =>
        split
        · exact .error _
        · have set := keeps field (List.mem_of_getElem? found) record entry.2 start
          exact set.bind fun next holds => ih next _ holds

/-- A list may end before the fields do: what is left of them keeps its value by default, of which the invariant
holds. -/
theorem setInOrder_ensures (surplus : Surplus) (total : Nat) {fields : List (Field (Setter σ))}
    (keeps : ∀ field ∈ fields, ∀ record datum, I record → Ensures I (field.read record datum)) (items : List Datum)
    (record : σ) (start : I record) : Ensures I (setInOrder schema surplus total record fields items) := by
  induction fields generalizing items record with
  | nil =>
    cases items with
    | nil => exact .ok start
    | cons => exact .error _
  | cons field fields ih =>
    obtain ⟨first, rest⟩ := List.forall_mem_cons.mp keeps
    cases items with
    | nil =>
      unfold setInOrder
      split
      · exact .error _
      · exact .ok start
    | cons item items => exact (first record item start).bind fun next holds => ih rest items next holds

/-- An invariant that no field breaks holds of every record that is read. -/
theorem record_ensures
    (keeps : ∀ field ∈ schema.fields, ∀ record datum, I record → Ensures I (field.read record datum))
    (surplus : Surplus) {default : σ} (start : I default) (datum : Datum) :
    Ensures I (record schema surplus default datum) := by
  cases datum with
  | map entries => exact setFields_ensures keeps entries default [] start
  | list items => exact setInOrder_ensures surplus items.length keeps items default start
  | _ => exact .error _

end Records

end Datum

end Tablature
