import Tablature.Proofs.Double.Whole
import Tablature.Proofs.Elapsed
import Tablature.Proofs.TempoCascade

namespace Tablature

section Partition

variable {α : Type} {xs : Array α} {p : α → Bool}

/-- The entry at a place is there and satisfies `p`. -/
def HoldsAt (xs : Array α) (p : α → Bool) (i : Nat) : Prop :=
  (xs[i]?).any p = true

/-- Halving finds where the entries that satisfy `p` end, if none of them comes after one that does not: all
before `base` satisfy it, and none from `base + size` on. -/
theorem partitionFrom_spec (closed : ∀ i j, i ≤ j → HoldsAt xs p j → HoldsAt xs p i) {base size : Nat}
    (before : ∀ i < base, HoldsAt xs p i) (after : ∀ i, base + size ≤ i → ¬HoldsAt xs p i) (i : Nat) :
    HoldsAt xs p i ↔ i < partitionFrom xs p base size := by
  induction base, size using partitionFrom.induct xs p with
  | case1 base size many half here ih =>
    rw [partitionFrom, if_pos many]
    simp only [half] at here ih
    rw [if_pos here]
    refine ih (fun i below => closed i _ (Nat.le_of_lt below) here) fun i above => after i ?_
    omega
  | case2 base size many half notHere ih =>
    rw [partitionFrom, if_pos many]
    simp only [half] at notHere ih
    rw [if_neg notHere]
    refine ih before fun i above satisfies => notHere (closed _ i ?_ satisfies)
    omega
  | case3 base size few here =>
    rw [partitionFrom, if_neg few, if_pos here]
    obtain ⟨one, here⟩ := Bool.and_eq_true_iff.mp here
    have one : size = 1 := of_decide_eq_true one
    constructor
    · intro satisfies
      by_contra above
      exact after i (by omega) satisfies
    · intro below
      exact closed i base (Nat.le_of_lt_succ below) here
  | case4 base size few notHere =>
    rw [partitionFrom, if_neg few, if_neg notHere]
    refine ⟨fun satisfies => ?_, before i⟩
    by_contra above
    have atBase := closed base i (Nat.not_lt.mp above) satisfies
    by_cases one : size = 1
    · exact notHere (Bool.and_eq_true_iff.mpr ⟨decide_eq_true one, atBase⟩)
    · exact after base (by omega) atBase

theorem partitionPoint_spec (closed : ∀ i j, i ≤ j → HoldsAt xs p j → HoldsAt xs p i) (i : Nat) :
    HoldsAt xs p i ↔ i < partitionPoint xs p := by
  refine partitionFrom_spec closed (fun i below => absurd below (Nat.not_lt_zero i)) (fun i above => ?_) i
  rw [HoldsAt, Array.getElem?_eq_none (by omega)]
  exact Bool.false_ne_true

end Partition

/-- The times of a timeline never go back, and all of them are numbers. -/
def Rising (moments : List Moment) : Prop :=
  ∀ (i j : Nat) (m later : Moment), i ≤ j → moments[i]? = some m → moments[j]? = some later → m.elapsed ≤ later.elapsed

/-- The moment at `i` is the last that begins at `seconds` or before. -/
def IsLatest (moments : List Moment) (seconds : Float) (i : Nat) : Prop :=
  (∃ m, moments[i]? = some m ∧ m.elapsed ≤ seconds) ∧
    ∀ j m, moments[j]? = some m → m.elapsed ≤ seconds → j ≤ i

namespace Rising

variable {moments : List Moment} (rising : Rising moments) {seconds : Float}

include rising

theorem partition (seconds : Float) (i : Nat) :
    (∃ m, moments[i]? = some m ∧ m.elapsed ≤ seconds) ↔
      i < partitionPoint moments.toArray fun m => m.elapsed ≤ seconds := by
  have holds (i : Nat) : HoldsAt moments.toArray (fun m => m.elapsed ≤ seconds) i ↔
      ∃ m, moments[i]? = some m ∧ m.elapsed ≤ seconds := by
    rw [HoldsAt, List.getElem?_toArray, Option.any_eq_true]
    simp only [decide_eq_true_eq]
  rw [← holds]
  refine partitionPoint_spec (fun i j below atJ => ?_) i
  obtain ⟨later, there, early⟩ := (holds j).mp atJ
  have bound : j < moments.length := (List.getElem?_eq_some_iff.mp there).1
  have here : moments[i]? = some moments[i] := List.getElem?_eq_getElem (by omega)
  exact (holds i).mpr ⟨_, here, Double.le_trans (rising i j _ later below here there) early⟩

/-- Looking a time up finds the same as going through all moments in order. -/
theorem positionAt_some (i : Nat) : positionAt moments seconds = some i ↔ IsLatest moments seconds i := by
  have found := rising.partition seconds
  have places : positionAt moments seconds = some i ↔
      (partitionPoint moments.toArray fun m => m.elapsed ≤ seconds) = i + 1 := by
    unfold positionAt
    split
    · next none => rw [none]; exact iff_of_false nofun nofun
    · next n some => rw [some, Option.some.injEq, Nat.succ_inj]
  rw [places]
  constructor
  · intro same
    rw [same] at found
    exact ⟨(found i).mpr (Nat.lt_succ_self i), fun j m here early =>
      Nat.le_of_lt_succ ((found j).mp ⟨m, here, early⟩)⟩
  · rintro ⟨here, latest⟩
    have below := (found i).mp here
    by_contra other
    obtain ⟨m, there, early⟩ := (found (i + 1)).mpr (by omega)
    exact absurd (latest (i + 1) m there early) (by omega)

theorem positionAt_none : positionAt moments seconds = none ↔ ∀ m ∈ moments, ¬m.elapsed ≤ seconds := by
  have found := rising.partition seconds
  have places : positionAt moments seconds = none ↔
      (partitionPoint moments.toArray fun m => m.elapsed ≤ seconds) = 0 := by
    unfold positionAt
    split
    · next none => exact iff_of_true rfl none
    · next n some => rw [some]; exact iff_of_false nofun nofun
  rw [places]
  constructor
  · intro same m member early
    obtain ⟨i, here⟩ := List.mem_iff_getElem?.mp member
    rw [same] at found
    exact absurd ((found i).mp ⟨m, here, early⟩) (Nat.not_lt_zero i)
  · intro late
    by_contra some
    obtain ⟨m, here, early⟩ := (found 0).mpr (by omega)
    exact late m (List.mem_of_getElem? here) early

/-- Looking up the time of a moment does not lead before it. -/
theorem positionAt_own {i : Nat} {m : Moment} (here : moments[i]? = some m) :
    ∃ j, i ≤ j ∧ positionAt moments m.elapsed = some j := by
  cases found : positionAt moments m.elapsed with
  | none =>
    have early := rising i i m m (Nat.le_refl i) here here
    exact absurd early (rising.positionAt_none.mp found m (List.mem_of_getElem? here))
  | some j =>
    have early := rising i i m m (Nat.le_refl i) here here
    exact ⟨j, ((rising.positionAt_some j).mp found).2 i m here early, rfl⟩

theorem positionAt_last (last : Moment) (isLast : moments.getLast? = some last) :
    positionAt moments last.elapsed = some (moments.length - 1) := by
  have here : moments[moments.length - 1]? = some last := by rw [← List.getLast?_eq_getElem?, isLast]
  refine (rising.positionAt_some _).mpr ⟨⟨last, here, rising _ _ last last (Nat.le_refl _) here here⟩, ?_⟩
  intro j m there _
  have bound : j < moments.length := (List.getElem?_eq_some_iff.mp there).1
  omega

theorem positionAt_mono {later : Float} (after : seconds ≤ later) {i : Nat}
    (found : positionAt moments seconds = some i) : ∃ j, i ≤ j ∧ positionAt moments later = some j := by
  obtain ⟨⟨m, here, early⟩, _⟩ := (rising.positionAt_some i).mp found
  have stillEarly := Double.le_trans early after
  cases foundLater : positionAt moments later with
  | none => exact absurd stillEarly (rising.positionAt_none.mp foundLater m (List.mem_of_getElem? here))
  | some j => exact ⟨j, ((rising.positionAt_some j).mp foundLater).2 i m here stillEarly, rfl⟩

end Rising

/-- Where every moment takes as long as it says, later moments do not begin earlier. -/
theorem Unbroken.pairwise {start : Float} {moments : List Moment} (unbroken : Unbroken start moments)
    (zero : 0.0 ≤ start) (usable : ∀ m ∈ moments, isUsableTempo m.bpm = true) :
    (∀ m ∈ moments, start ≤ m.elapsed) ∧ moments.Pairwise fun m later => m.elapsed ≤ later.elapsed := by
  induction moments generalizing start with
  | nil => exact ⟨nofun, .nil⟩
  | cons m moments ih =>
    obtain ⟨rfl, rest⟩ := unbroken
    have self : m.elapsed ≤ m.elapsed := (Double.le_self zero).2
    have step : m.elapsed ≤ m.ending := by
      unfold Moment.ending
      split
      · exact self
      · next played =>
        have playable : m.length.isPlayable = true := bne_iff_ne.mpr played
        exact Double.le_add zero (Double.zero_le_secondsAt playable (usable m List.mem_cons_self))
    obtain ⟨above, pairwise⟩ := ih rest (Double.le_trans zero step) fun later member =>
      usable later (List.mem_cons_of_mem _ member)
    have after : ∀ later ∈ moments, m.elapsed ≤ later.elapsed := fun later member =>
      Double.le_trans step (above later member)
    refine ⟨fun later member => ?_, List.pairwise_cons.mpr ⟨after, pairwise⟩⟩
    rcases List.mem_cons.mp member with rfl | member
    · exact self
    · exact after later member

theorem le_endAfter {last : Moment} (zero : 0.0 ≤ last.elapsed) (usable : isUsableTempo last.bpm = true) :
    last.elapsed ≤ (endAfter last).elapsed := by
  have margin := Double.le_add zero (Double.zero_le_roundUp (Double.zero_le_minute usable))
  have second : (0.0 : Float) ≤ 1.0 := Double.zero_le_of_plus rfl
  exact Double.le_trans margin (Double.le_add (Double.le_trans zero margin) second)

/-- The end of a timeline begins after all that is on it. -/
theorem pairwise_closeTimeline {moments : List Moment} (zero : ∀ m ∈ moments, 0.0 ≤ m.elapsed)
    (usable : ∀ m ∈ moments, isUsableTempo m.bpm = true)
    (pairwise : moments.Pairwise fun m later => m.elapsed ≤ later.elapsed) :
    (∀ m ∈ closeTimeline moments, 0.0 ≤ m.elapsed) ∧
      (closeTimeline moments).Pairwise fun m later => m.elapsed ≤ later.elapsed := by
  unfold closeTimeline
  cases isLast : moments.getLast? with
  | none =>
    rw [Option.map_none, Option.toList_none, List.append_nil]
    exact ⟨zero, pairwise⟩
  | some last =>
    have member : last ∈ moments := List.mem_of_getLast? isLast
    have atEnd := le_endAfter (zero last member) (usable last member)
    obtain ⟨front, rfl⟩ := List.getLast?_eq_some_iff.mp isLast
    have before := (List.pairwise_append.mp pairwise).2.2
    have ordered : ∀ m ∈ front ++ [last], m.elapsed ≤ (endAfter last).elapsed := by
      intro m inMoments
      rcases List.mem_append.mp inMoments with inFront | isSelf
      · exact Double.le_trans (before m inFront last (List.mem_singleton.mpr rfl)) atEnd
      · cases List.mem_singleton.mp isSelf
        exact atEnd
    rw [Option.map_some, Option.toList_some]
    refine ⟨fun m inClosed => ?_, List.pairwise_append.mpr ⟨pairwise, List.pairwise_singleton _ _, ?_⟩⟩
    · rcases List.mem_append.mp inClosed with inMoments | isEnd
      · exact zero m inMoments
      · cases List.mem_singleton.mp isEnd
        exact Double.le_trans (zero last member) atEnd
    · intro m inMoments later isEnd
      cases List.mem_singleton.mp isEnd
      exact ordered m inMoments

theorem rising_of_pairwise {moments : List Moment} (zero : ∀ m ∈ moments, 0.0 ≤ m.elapsed)
    (pairwise : moments.Pairwise fun m later => m.elapsed ≤ later.elapsed) : Rising moments := by
  intro i j m later order here there
  rcases Nat.lt_or_eq_of_le order with below | rfl
  · obtain ⟨boundI, rfl⟩ := List.getElem?_eq_some_iff.mp here
    obtain ⟨boundJ, rfl⟩ := List.getElem?_eq_some_iff.mp there
    exact List.pairwise_iff_getElem.mp pairwise i j boundI boundJ below
  · rw [here] at there
    cases there
    exact (Double.le_self (zero m (List.mem_of_getElem? here))).2

namespace Document

variable (d : Document) (options : Options) (r : Request)

theorem moments_rising : Rising (d.answer options r).moments := by
  have start : (0.0 : Float) ≤ 0.0 := Double.zero_le_of_plus rfl
  have usable : ∀ m ∈ (d.answer options r).body r, isUsableTempo m.bpm = true := fun m member =>
    tempoAt?_usable (body_tempo member)
  have unbroken := d.performance_unbroken options r
  rw [← body_moments] at unbroken
  obtain ⟨zero, pairwise⟩ := unbroken.pairwise start usable
  rw [moments_close]
  cases r with
  | part address =>
    rw [List.append_nil]
    exact rising_of_pairwise zero pairwise
  | whole entries =>
    obtain ⟨zeroClosed, pairwiseClosed⟩ := pairwise_closeTimeline zero usable pairwise
    exact rising_of_pairwise zeroClosed pairwiseClosed

/-- The times of a timeline never go back, its end included, and so looking a time up by halving finds what going
through the timeline in order does: the last moment that begins then or before. Looking up the time of a moment
does not lead before it, the time of the last one leads to it, and a later time does not lead to an earlier
moment. -/
theorem lookup_scans :
    Rising (d.answer options r).moments ∧
    (∀ seconds i, (d.answer options r).positionAt seconds = some i ↔ IsLatest (d.answer options r).moments seconds i) ∧
    (∀ seconds, (d.answer options r).positionAt seconds = none ↔
      ∀ m ∈ (d.answer options r).moments, ¬m.elapsed ≤ seconds) ∧
    (∀ (i : Nat) (m : Moment), (d.answer options r).moments[i]? = some m →
      ∃ j, i ≤ j ∧ (d.answer options r).positionAt m.elapsed = some j) ∧
    ((d.answer options r).moments ≠ [] → (d.answer options r).positionAt (d.answer options r).durationSeconds =
      some ((d.answer options r).moments.length - 1)) ∧
    ∀ seconds later i, seconds ≤ later → (d.answer options r).positionAt seconds = some i →
      ∃ j, i ≤ j ∧ (d.answer options r).positionAt later = some j := by
  have rising := d.moments_rising options r
  refine ⟨rising, fun seconds i => rising.positionAt_some i, fun seconds => rising.positionAt_none,
    fun i m here => rising.positionAt_own here, fun present => ?_,
    fun seconds later i after found => rising.positionAt_mono after found⟩
  cases isLast : (d.answer options r).moments.getLast? with
  | none => exact absurd (List.getLast?_eq_none_iff.mp isLast) present
  | some last =>
    have duration : (d.answer options r).durationSeconds = last.elapsed := by
      rw [Playback.durationSeconds, isLast]
      rfl
    rw [duration]
    exact rising.positionAt_last last isLast

end Document

end Tablature
