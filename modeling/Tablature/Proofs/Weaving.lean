import Tablature.Proofs.Cue
import Tablature.Proofs.Performance

namespace Tablature

/-- The passes of a tree beside the timeline: each turn in order gives one unit over its own stretch of marks,
as `R` says of the unit, its stretch and whether it was cut short. If playing is cut short, the unit in which
that happens is the last one, or is left out when nothing of it was played; no later turn gives anything. -/
inductive Woven {σ α : Type} (R : σ → Bool → List Mark → α → Prop) : List σ → Bool → List Mark → List α → Prop
  | done : Woven R [] false [] []
  | dropped (turn : σ) (turns : List σ) : Woven R (turn :: turns) true [] []
  | last {turn turns marks unit} : R turn true marks unit → Woven R (turn :: turns) true marks [unit]
  | next {turn turns cut marks rest unit units} : R turn false marks unit → Woven R turns cut rest units →
      Woven R (turn :: turns) cut (marks ++ rest) (unit :: units)

/-- Each unit is as `R` says of the turn at its position. -/
def Aligned {σ α : Type} (R : σ → α → Prop) (turns : List σ) (units : List α) : Prop :=
  ∀ (k : Nat) (unit : α), units[k]? = some unit → ∃ turn, turns[k]? = some turn ∧ R turn unit

namespace Woven

variable {σ α : Type} {R : σ → Bool → List Mark → α → Prop} {turns later : List σ} {marks : List Mark}
  {units : List α} {cut : Bool}

theorem one {turn : σ} {unit : α} (played : R turn cut marks unit) : Woven R [turn] cut marks [unit] := by
  cases cut with
  | true => exact .last played
  | false => simpa only [List.append_nil] using Woven.next played .done

/-- What comes after a cut makes no difference. -/
theorem append_of_cut (woven : Woven R turns cut marks units) (ended : cut = true) (later : List σ) :
    Woven R (turns ++ later) cut marks units := by
  induction woven with
  | done => cases ended
  | dropped turn turns => exact .dropped turn (turns ++ later)
  | last played => exact .last played
  | next played _ ih => exact .next played (ih ended)

theorem append (woven : Woven R turns cut marks units) (whole : cut = false) {cutLater : Bool}
    {marksLater : List Mark} {unitsLater : List α} (wovenLater : Woven R later cutLater marksLater unitsLater) :
    Woven R (turns ++ later) cutLater (marks ++ marksLater) (units ++ unitsLater) := by
  induction woven with
  | done => exact wovenLater
  | dropped => cases whole
  | last => cases whole
  | next played _ ih =>
    rw [List.append_assoc]
    exact .next played (ih whole)

/-- A unit of the tree, its turn and its stretch of the timeline. -/
theorem getElem? (woven : Woven R turns cut marks units) {k : Nat} {unit : α} (at' : units[k]? = some unit) :
    ∃ turn short before stretch after, turns[k]? = some turn ∧ (cut = false → short = false) ∧
      marks = before ++ stretch ++ after ∧ R turn short stretch unit := by
  induction woven generalizing k with
  | done => cases at'
  | dropped => cases at'
  | @last turn turns marks other played =>
    cases k with
    | zero =>
      cases at'
      exact ⟨turn, true, [], marks, [], rfl, nofun, by simp, played⟩
    | succ k => cases at'
  | @next turn turns cut marks rest other units played woven ih =>
    cases k with
    | zero =>
      cases at'
      exact ⟨turn, false, [], marks, rest, rfl, fun _ => rfl, rfl, played⟩
    | succ k =>
      obtain ⟨found, short, before, stretch, after, place, whole, split, holds⟩ := ih at'
      refine ⟨found, short, marks ++ before, stretch, after, place, whole, ?_, holds⟩
      rw [split]
      simp only [List.append_assoc]

/-- What a unit has to do with its stretch holds between each unit and the turn at its position. -/
theorem aligned {S : σ → α → Prop} (woven : Woven R turns cut marks units)
    (each : ∀ {turn short stretch unit}, (∀ m ∈ stretch, m ∈ marks) → (cut = false → short = false) →
      R turn short stretch unit → S turn unit) : Aligned S turns units := by
  intro k unit at'
  obtain ⟨turn, short, before, stretch, after, place, whole, split, played⟩ := woven.getElem? at'
  refine ⟨turn, place, each (fun m member => ?_) whole played⟩
  rw [split]
  exact List.mem_append_left _ (List.mem_append_right _ member)

/-- Unless playing is cut short, no unit is. -/
theorem whole_units {P : α → Prop} (woven : Woven R turns cut marks units)
    (each : ∀ {turn marks unit}, R turn false marks unit → P unit) (whole : cut = false) :
    ∀ unit ∈ units, P unit := by
  induction woven with
  | done => exact nofun
  | dropped => cases whole
  | last => cases whole
  | next played _ ih => exact List.forall_mem_cons.mpr ⟨each played, ih whole⟩

/-- What units carry along is what their marks carry, when that holds of each of them. -/
theorem flatMap_eq {β : Type} {carried : α → List β} {read : Mark → Option β}
    (each : ∀ {turn cut marks unit}, R turn cut marks unit → carried unit = marks.filterMap read)
    (woven : Woven R turns cut marks units) : units.flatMap carried = marks.filterMap read := by
  induction woven with
  | done => rfl
  | dropped => rfl
  | last played => rw [List.flatMap_singleton, each played]
  | next played _ ih => rw [List.flatMap_cons, List.filterMap_append, each played, ih]

end Woven

/-- Whenever the part is played, its units are woven from these turns. -/
def Part.Weaves {σ α : Type} (part : Part α) (R : σ → Bool → List Mark → α → Prop) (turns : List σ) : Prop :=
  ∀ clock, Woven R turns (part clock).cut ((part clock).moments.map Moment.mark) (part clock).units

namespace Part.Weaves

variable {σ τ α β : Type} {R : σ → Bool → List Mark → α → Prop} {S : τ → Bool → List Mark → β → Prop}

theorem report (problems : List Diagnostic) : (Part.report problems : Part α).Weaves R [] := fun _ => .done

theorem andThen {first second : Part α} {turns later : List σ} (firstly : first.Weaves R turns)
    (then' : second.Weaves R later) : (first.andThen second).Weaves R (turns ++ later) := by
  intro clock
  cases ended : (first clock).cut with
  | true =>
    rw [andThen_of_cut second ended]
    exact (firstly clock).append_of_cut ended later
  | false =>
    rw [andThen_of_whole second ended]
    simp only [Run.append, List.map_append]
    exact (firstly clock).append ended (then' (first clock).clock)

theorem sequential : Sequential (fun (part : Part α) turns => part.Weaves R turns) List.flatten where
  rest := fun _ => .done
  andThen := fun first others => first.andThen others

theorem times {part : Part α} {turn : σ} (once : part.Weaves R [turn]) (n : Nat) :
    (part.times n).Weaves R (List.replicate n turn) := by
  rw [← List.flatten_replicate_singleton]
  exact sequential.times once n

theorem gather {part : Part α} {unit : List α → β} {turn : τ}
    (made : ∀ clock, S turn (part clock).cut ((part clock).moments.map Moment.mark) (unit (part clock).units)) :
    (part.gather unit).Weaves S [turn] := by
  intro clock
  simp only [Part.gather]
  by_cases empty : ((part clock).cut && (part clock).moments.isEmpty) = true
  · obtain ⟨ended, silent⟩ := Bool.and_eq_true_iff.mp empty
    rw [if_pos empty, ended, List.isEmpty_iff.mp silent]
    exact .dropped turn []
  · rw [if_neg empty]
    exact .one (made clock)

theorem enclose {part : Part α} {unit : List α → β} {turn : τ}
    (made : ∀ clock, S turn (part clock).cut ((part clock).moments.map Moment.mark) (unit (part clock).units)) :
    (part.enclose unit).Weaves S [turn] := fun clock => .one (made clock)

end Part.Weaves

end Tablature
