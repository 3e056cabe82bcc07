import Mathlib.Data.List.Forall2
import Tablature.Playback.Part

namespace Tablature

theorem map_mapIdx {α β γ : Type} (f : β → γ) (g : Nat → α → β) (xs : List α) :
    (xs.mapIdx g).map f = xs.mapIdx fun i x => f (g i x) := by
  rw [List.mapIdx_eq_zipIdx_map, List.mapIdx_eq_zipIdx_map, List.map_map]
  rfl

theorem mem_flatten_mapIdx {α β : Type} {f : Nat → α → List β} {xs : List α} {y : β} :
    y ∈ (xs.mapIdx f).flatten ↔ ∃ i x, xs[i]? = some x ∧ y ∈ f i x := by
  rw [List.mem_flatten]
  constructor
  · rintro ⟨group, inGroups, inGroup⟩
    obtain ⟨i, bound, rfl⟩ := List.mem_mapIdx.mp inGroups
    exact ⟨i, xs[i], List.getElem?_eq_getElem bound, inGroup⟩
  · rintro ⟨i, x, here, inGroup⟩
    obtain ⟨bound, rfl⟩ := List.getElem?_eq_some_iff.mp here
    exact ⟨f i xs[i], List.mem_mapIdx.mpr ⟨i, bound, rfl⟩, inGroup⟩

/-- What is made of two lists is related in pairs if it is at every place. -/
theorem forall₂_mapIdx {α β γ δ : Type} {R : γ → δ → Prop} {f : Nat → α → γ} {g : Nat → β → δ} {xs : List α}
    {ys : List β} (length : xs.length = ys.length)
    (each : ∀ i x y, xs[i]? = some x → ys[i]? = some y → R (f i x) (g i y)) :
    List.Forall₂ R (xs.mapIdx f) (ys.mapIdx g) := by
  refine List.forall₂_of_length_eq_of_get (by rw [List.length_mapIdx, List.length_mapIdx, length]) fun i inX inY => ?_
  rw [List.length_mapIdx] at inX inY
  rw [List.get_eq_getElem, List.get_eq_getElem, List.getElem_mapIdx, List.getElem_mapIdx]
  exact each i xs[i] ys[i] (List.getElem?_eq_getElem inX) (List.getElem?_eq_getElem inY)

/-- Made of one list in two ways, with the same item at every place. -/
theorem forall₂_mapIdx_self {α β γ : Type} {R : β → γ → Prop} {f : Nat → α → β} {g : Nat → α → γ} {xs : List α}
    (each : ∀ i x, xs[i]? = some x → R (f i x) (g i x)) : List.Forall₂ R (xs.mapIdx f) (xs.mapIdx g) := by
  refine forall₂_mapIdx rfl fun i x y atX atY => ?_
  cases atX.symm.trans atY
  exact each i x atX

namespace Part

variable {α β : Type}

theorem andThen_of_cut {first : Part α} {clock : Clock} (second : Part α) (cut : (first clock).cut = true) :
    first.andThen second clock = first clock := by
  simp only [andThen, cut, if_true]

theorem andThen_of_whole {first : Part α} {clock : Clock} (second : Part α) (whole : (first clock).cut = false) :
    first.andThen second clock = (first clock).append (second (first clock).clock) := by
  simp only [andThen, whole, Bool.false_eq_true, if_false]

theorem rest_andThen (part : Part α) : rest.andThen part = part := rfl

theorem andThen_rest (part : Part α) : part.andThen rest = part := by
  funext clock
  cases ended : (part clock).cut with
  | true => rw [andThen_of_cut rest ended]
  | false =>
    rw [andThen_of_whole rest ended]
    simp only [Run.append, rest, List.append_nil, ← ended]

theorem inOrder_replicate (part : Part α) (n : Nat) : inOrder (List.replicate n part) = part.times n := by
  induction n with
  | zero => rfl
  | succ n ih =>
    rw [List.replicate_succ]
    exact congrArg part.andThen ih

theorem times_one (part : Part α) : part.times 1 = part :=
  andThen_rest part

/-- Once a part is cut short, nothing after it is played, however what follows is grouped. -/
theorem andThen_assoc (first second third : Part α) :
    (first.andThen second).andThen third = first.andThen (second.andThen third) := by
  funext clock
  cases front : (first clock).cut with
  | true =>
    have stopped := andThen_of_cut second front
    rw [andThen_of_cut _ front, andThen_of_cut third (by rw [stopped, front]), stopped]
  | false =>
    have joined := andThen_of_whole second front
    rw [andThen_of_whole _ front]
    cases middle : (second (first clock).clock).cut with
    | true => rw [andThen_of_cut third middle, andThen_of_cut third (by rw [joined]; exact middle), joined]
    | false =>
      rw [andThen_of_whole third middle, andThen_of_whole third (by rw [joined]; exact middle), joined]
      simp only [Run.append, List.append_assoc]

theorem inOrder_nil : inOrder ([] : List (Part α)) = rest := rfl

theorem inOrder_cons (part : Part α) (parts : List (Part α)) :
    inOrder (part :: parts) = part.andThen (inOrder parts) := rfl

theorem inOrder_append (front back : List (Part α)) :
    inOrder (front ++ back) = (inOrder front).andThen (inOrder back) := by
  induction front with
  | nil => rw [List.nil_append, inOrder_nil, rest_andThen]
  | cons part front ih => rw [List.cons_append, inOrder_cons, inOrder_cons, ih, andThen_assoc]

/-- A unit is left out only where its part is cut short before it has a moment. -/
theorem gather_units (unit : List α → β) (part : Part α) (clock : Clock) :
    ((part clock).cut = true ∧ (part clock).moments = [] → (part.gather unit clock).units = []) ∧
    (¬((part clock).cut = true ∧ (part clock).moments = []) →
      (part.gather unit clock).units = [unit (part clock).units]) := by
  have reads : ((part clock).cut && (part clock).moments.isEmpty) = true ↔
      (part clock).cut = true ∧ (part clock).moments = [] := by
    rw [Bool.and_eq_true, List.isEmpty_iff]
  exact ⟨fun stopped => if_pos (reads.mpr stopped), fun goesOn => if_neg (mt reads.mp goesOn)⟩

/-- Parts that are never cut short and make one unit each make their units in order, each from the clock that the
parts before it leave. -/
theorem inOrder_single {parts : List (Part α)} (clock : Clock)
    (single : ∀ part ∈ parts, ∀ clock, (part clock).cut = false ∧ (part clock).units.length = 1) :
    (inOrder parts clock).units.length = parts.length ∧
    ∀ (i : Nat) (part : Part α), parts[i]? = some part →
      (inOrder parts clock).units[i]? = (part (inOrder (parts.take i) clock).clock).units[0]? := by
  induction parts generalizing clock with
  | nil => exact ⟨rfl, fun i part here => by cases here⟩
  | cons first parts ih =>
    -- The clock is general: what stands behind the first part starts from the one that this part leaves.
    obtain ⟨whole, one⟩ := single first List.mem_cons_self clock
    obtain ⟨length, later⟩ := ih (first clock).clock fun part member => single part (List.mem_cons_of_mem _ member)
    obtain ⟨made, isMade⟩ := List.length_eq_one_iff.mp one
    have units : (inOrder (first :: parts) clock).units = made :: (inOrder parts (first clock).clock).units := by
      rw [inOrder_cons, andThen_of_whole _ whole, Run.append, isMade, List.singleton_append]
    rw [units]
    refine ⟨by rw [List.length_cons, length, List.length_cons], fun i part here => ?_⟩
    cases i with
    | zero =>
      cases here
      rw [List.take_zero, inOrder_nil, Part.rest, isMade]
      rfl
    | succ i =>
      have before : (inOrder ((first :: parts).take (i + 1)) clock).clock =
          (inOrder (parts.take i) (first clock).clock).clock := by
        rw [List.take_succ_cons, inOrder_cons, andThen_of_whole _ whole, Run.append]
      rw [before, List.getElem?_cons_succ]
      exact later i part here

/-- A relation between parts and what they stand for that parts in sequence inherit. `total` puts together what the
parts stand for. -/
structure Sequential {σ : Type} (R : Part α → σ → Prop) (total : List σ → σ) : Prop where
  rest : R Part.rest (total [])
  andThen : ∀ {first second : Part α} {a : σ} {as : List σ}, R first a → R second (total as) →
    R (first.andThen second) (total (a :: as))

namespace Sequential

variable {σ γ : Type} {R : Part α → σ → Prop} {total : List σ → σ}

/-- The induction over a sequence, once for all such relations. What clocks and cuts do to a sequence they do where
two parts are joined. -/
theorem inOrder (sequential : Sequential R total) {parts : List (Part α)} {as : List σ}
    (each : List.Forall₂ R parts as) : R (Part.inOrder parts) (total as) := by
  induction each with
  | nil => exact sequential.rest
  | cons first _ ih => exact sequential.andThen first ih

theorem inOrder_map (sequential : Sequential R total) {play : γ → Part α} {f : γ → σ}
    (each : ∀ x, R (play x) (f x)) (xs : List γ) : R (Part.inOrder (xs.map play)) (total (xs.map f)) := by
  refine sequential.inOrder ?_
  rw [List.forall₂_map_left_iff, List.forall₂_map_right_iff]
  exact List.forall₂_same.mpr fun x _ => each x

theorem inOrder_mapIdx (sequential : Sequential R total) {play : Nat → γ → Part α} {f : Nat → γ → σ} (xs : List γ)
    (each : ∀ i x, xs[i]? = some x → R (play i x) (f i x)) :
    R (Part.inOrder (xs.mapIdx play)) (total (xs.mapIdx f)) :=
  sequential.inOrder (forall₂_mapIdx_self each)

/-- Passes are the same part in sequence, and stand for the same each time. -/
theorem times (sequential : Sequential R total) {part : Part α} {a : σ} (once : R part a) (n : Nat) :
    R (part.times n) (total (List.replicate n a)) := by
  induction n with
  | zero => exact sequential.rest
  | succ n ih => exact sequential.andThen once ih

end Sequential

/-- What is played as often on both sides is in a relation between parts if it is once. -/
theorem Sequential.times_both {R : Part α → Part β → Prop} (sequential : Sequential R Part.inOrder) {part : Part α}
    {other : Part β} (once : R part other) (n : Nat) : R (part.times n) (other.times n) := by
  rw [← inOrder_replicate other]
  exact sequential.times once n

/-- A property that parts in sequence inherit is a relation of parts to nothing. -/
theorem Sequential.of_property {P : Part α → Prop} (rest : P Part.rest)
    (andThen : ∀ {first second : Part α}, P first → P second → P (first.andThen second)) :
    Sequential (fun part (_ : Unit) => P part) fun _ => () :=
  ⟨rest, andThen⟩

end Part

end Tablature
