import Tablature.Proofs.DefaultProgression
import Tablature.Proofs.Double.Amounts
import Tablature.Proofs.Lookup
import Tablature.Proofs.WholeTempo

namespace Tablature

/-- The tempo is between two powers of two, of which the second is `2 ^ span` times the first. -/
def TempoWithin (low : Int) (span : Nat) (bpm : Float) : Prop :=
  ∃ v, (Binary.ofFloat bpm).value? = some v ∧ 2 ^ low ≤ v ∧ v ≤ 2 ^ (low + span)

namespace Double

open Float.Model Float.Model.UnpackedFloat

theorem amounts_of_value {x : Float} {v : ℚ} (value : (Binary.ofFloat x).value? = some v) (positive : 0 < v) :
    Amounts (parts x) v := by
  rw [ofFloat_eq] at value
  generalize parts x = f at value
  cases f with
  | notANumber | infinity => cases value
  | zero s =>
    obtain rfl := Option.some.inj value
    rw [Nat.cast_zero, mul_zero, zero_mul] at positive
    exact absurd positive (lt_irrefl 0)
  | finite s m e some =>
    obtain rfl := Option.some.inj value
    have magnitude : (0 : ℚ) < m * 2 ^ e := by positivity
    cases s with
    | negative =>
      have negative : (if isNegative .negative then -1 else 1 : ℚ) * m * 2 ^ e = -(m * 2 ^ e) := by
        have sign : isNegative .negative = true := rfl
        rw [if_pos sign]
        ring
      rw [negative] at positive
      linarith
    | positive =>
      have number : (if isNegative .positive then -1 else 1 : ℚ) * m * 2 ^ e = m * 2 ^ e := by
        have sign : ¬isNegative .positive = true := Bool.false_ne_true
        rw [if_neg sign, one_mul]
      rw [number]
      exact .finite

theorem minute_amounts : Amounts (parts 60.0) 60 := by
  have same : parts 60.0 = .finite .positive (60 * 2 ^ 47) (-47) (by decide) := rfl
  have number : (60 : ℚ) = (60 * 2 ^ 47 : Nat) * 2 ^ (-47 : Int) := by norm_num
  rw [same, number]
  exact .finite

/-- Every length that is played is at least an eighth of a beat, and a beat at most. -/
theorem beats_amounts {length : NoteLength} (playable : length.isPlayable = true) :
    ∃ v, Amounts (parts length.beats) v ∧ 2 ^ (-3 : Int) ≤ v ∧ v ≤ 1 := by
  have finite {m : Nat} {e : Int} {positive : 0 < m} (same : parts length.beats = .finite .positive m e positive)
      (low : (2 : ℚ) ^ (-3 : Int) ≤ m * 2 ^ e) (high : (m : ℚ) * 2 ^ e ≤ 1) :
      ∃ v, Amounts (parts length.beats) v ∧ 2 ^ (-3 : Int) ≤ v ∧ v ≤ 1 := by
    rw [same]
    exact ⟨_, .finite, low, high⟩
  cases length with
  | measureLine => cases playable
  | quarter =>
    have same : parts 1.0 = .finite .positive 4503599627370496 (-52) (by decide) := rfl
    exact finite same (by norm_num) (by norm_num)
  | quarterTriplet =>
    have same : parts 0.6667 = .finite .positive 6005099743135819 (-53) (by decide) := rfl
    exact finite same (by norm_num) (by norm_num)
  | eighth =>
    have same : parts 0.5 = .finite .positive 4503599627370496 (-53) (by decide) := rfl
    exact finite same (by norm_num) (by norm_num)
  | eighthTriplet =>
    have same : parts 0.3333 = .finite .positive 6004199023210345 (-54) (by decide) := rfl
    exact finite same (by norm_num) (by norm_num)
  | sixteenth =>
    have same : parts 0.25 = .finite .positive 4503599627370496 (-54) (by decide) := rfl
    exact finite same (by norm_num) (by norm_num)
  | sixteenthTriplet =>
    have same : parts 0.1667 = .finite .positive 6006000463061293 (-55) (by decide) := rfl
    exact finite same (by norm_num) (by norm_num)

end Double

open Double

/-- A minute divided by a number between powers of two is between powers of two. -/
theorem minute_over {x : Float} {v : ℚ} {bottom top : Int} (amounts : Amounts (parts x) v) (above : 2 ^ bottom ≤ v)
    (below : v ≤ 2 ^ top) (least : -1000 ≤ bottom) (most : top ≤ 1010) :
    ∃ u, Amounts (parts (60.0 / x)) u ∧ 2 ^ (5 - top) ≤ u ∧ u ≤ 2 ^ (6 - bottom) := by
  have bottomPositive : (0 : ℚ) < 2 ^ bottom := by positivity
  have positive : 0 < v := bottomPositive.trans_le above
  have order : bottom ≤ top := (zpow_le_zpow_iff_right₀ (by norm_num : (1 : ℚ) < 2)).mp (above.trans below)
  have upper : 60 / v ≤ 2 ^ (6 - bottom) := by
    rw [zpow_sub₀ two_ne_zero]
    gcongr
    norm_num
  have lower : 2 ^ (5 - top) ≤ 60 / v := by
    rw [zpow_sub₀ two_ne_zero]
    gcongr
    norm_num
  have small : InReach (60 / v) := inReach_of_le (by omega) upper
  obtain ⟨u, quotient, faithful⟩ := div_amounts minute_amounts amounts (by norm_num) positive small
  exact ⟨u, quotient, faithful.lower (onGrid_two_zpow (by omega)) lower,
    faithful.upper (onGrid_two_zpow (by omega)) upper⟩

section Durations

variable {low : Int} {span : Nat} {bpm : Float} {length : NoteLength}

/-- How long a unit lasts at such a tempo. -/
theorem secondsAt_amounts (playable : length.isPlayable = true) (within : TempoWithin low span bpm)
    (least : -900 ≤ low) (most : low + span ≤ 1000) :
    ∃ u, Amounts (parts (length.secondsAt bpm)) u ∧ 2 ^ (2 - (low + span)) ≤ u ∧ u ≤ 2 ^ (6 - low) := by
  obtain ⟨v, value, above, below⟩ := within
  obtain ⟨w, beats, aboveEighth, belowBeat⟩ := beats_amounts playable
  have lowPositive : (0 : ℚ) < 2 ^ low := by positivity
  have eighthPositive : (0 : ℚ) < 2 ^ (-3 : Int) := by positivity
  have positive : 0 < v := lowPositive.trans_le above
  have positive' : 0 < w := eighthPositive.trans_le aboveEighth
  have upper : v / w ≤ 2 ^ (low + span + 3) := by
    have split : (2 : ℚ) ^ (low + span + 3) = 2 ^ (low + span) / 2 ^ (-3 : Int) := by
      rw [← zpow_sub₀ two_ne_zero, sub_neg_eq_add]
    rw [split]
    gcongr
  have scaled : v * w ≤ v := mul_le_of_le_one_right positive.le belowBeat
  have lower : 2 ^ low ≤ v / w := above.trans ((le_div_iff₀ positive').mpr scaled)
  have small : InReach (v / w) := inReach_of_le (by omega) upper
  obtain ⟨q, quotient, faithful⟩ := div_amounts (amounts_of_value value positive) beats positive positive' small
  obtain ⟨u, seconds, longer, shorter⟩ := minute_over quotient (faithful.lower (onGrid_two_zpow (by omega)) lower)
    (faithful.upper (onGrid_two_zpow (by omega)) upper) (by omega) (by omega)
  refine ⟨u, seconds, ?_, shorter⟩
  rw [show (5 - (low + span + 3) : Int) = 2 - (low + span) by omega] at longer
  exact longer

/-- The seconds of the clock are a number, of at most `2 ^ top` for each unit that was played. -/
structure Clock.Within (clock : Clock) (top : Int) (v : ℚ) : Prop where
  amounts : Amounts (parts clock.seconds) v
  bound : v ≤ clock.index * 2 ^ top

theorem Clock.start_within (top : Int) : Clock.start.Within top 0 where
  amounts := .zero
  bound := by positivity

/-- As long as not too many units were played, a double tells the end of the next one from that of the last. -/
theorem Clock.Within.short {clock : Clock} {v : ℚ} (within : clock.Within (6 - low) v)
    (few : (clock.index + 1) * 2 ^ span ≤ 2 ^ 49) : v < 2 ^ (2 - (low + span) + 53) := by
  have units : (clock.index : ℚ) * 2 ^ span < 2 ^ (49 : Int) := by
    have less : clock.index * 2 ^ span < (clock.index + 1) * 2 ^ span :=
      (Nat.mul_lt_mul_right (Nat.two_pow_pos span)).mpr (Nat.lt_succ_self _)
    exact_mod_cast less.trans_le few
  have scale : (2 : ℚ) ^ (6 - low) = 2 ^ span * 2 ^ (6 - (low + span)) := by
    rw [← zpow_natCast, ← zpow_add₀ two_ne_zero]
    congr 1
    omega
  calc v ≤ clock.index * 2 ^ (6 - low) := within.bound
    _ = clock.index * 2 ^ span * 2 ^ (6 - (low + span)) := by rw [scale, mul_assoc]
    _ < 2 ^ (49 : Int) * 2 ^ (6 - (low + span)) := by gcongr
    _ = 2 ^ (2 - (low + span) + 53) := by
      rw [← zpow_add₀ two_ne_zero]
      congr 1
      omega

/-- As long as not too many units were played, each of them moves the clock on. -/
theorem Clock.Within.after {clock : Clock} {v : ℚ} (within : clock.Within (6 - low) v)
    (playable : length.isPlayable = true) (tempo : TempoWithin low span bpm) (least : -900 ≤ low)
    (most : low + span ≤ 1000) (few : (clock.index + 1) * 2 ^ span ≤ 2 ^ 49) :
    ∃ later, (clock.after bpm length).Within (6 - low) later ∧ v < later := by
  have bound := within.bound
  obtain ⟨u, seconds, longer, shorter⟩ := secondsAt_amounts playable tempo least most
  have fewer : clock.index + 1 ≤ 2 ^ 49 := (Nat.le_mul_of_pos_right _ (Nat.two_pow_pos span)).trans few
  have place : (0 : ℚ) < 2 ^ (6 - low) := by positivity
  have total : v + u ≤ (clock.index + 1 : Nat) * 2 ^ (6 - low) := by
    push_cast
    linarith
  have small : InReach (v + u) := by
    refine inReach_of_le (k := 55 - low) (by omega) (total.trans ?_)
    have count : ((clock.index + 1 : Nat) : ℚ) ≤ 2 ^ (49 : Int) := by exact_mod_cast fewer
    rw [show (55 - low : Int) = 49 + (6 - low) by omega, zpow_add₀ two_ne_zero]
    gcongr
  have short := within.short few
  obtain ⟨next, grid, further, near⟩ := within.amounts.next (isDouble_parts _) (by omega) short
  obtain ⟨sum, added, faithful⟩ := add_amounts within.amounts seconds small
  have ends : OnGrid ((clock.index + 1 : Nat) * 2 ^ (6 - low)) := ⟨clock.index + 1, 6 - low, by omega, by omega, rfl⟩
  refine ⟨sum, ⟨added, faithful.upper ends total⟩, further.trans_le (faithful.lower grid ?_)⟩
  linarith

end Durations

/-- What a run gives that starts at this clock, at the time `start`: the times are numbers and do not go back, and a
unit that comes later is played later. -/
structure Run.Advances (run : Run Nat) (top : Int) (clock : Clock) (start : ℚ) : Prop where
  clock_le : clock.index ≤ run.clock.index
  times : ∀ m ∈ run.moments, ∃ v, Amounts (parts m.elapsed) v ∧ start ≤ v ∧ v ≤ run.clock.index * 2 ^ top
  indices : ∀ m ∈ run.moments, ∀ i, m.index = some i → clock.index ≤ i
  strict : ∀ m ∈ run.moments, ∀ later ∈ run.moments, ∀ i j, m.index = some i → later.index = some j → i < j →
    m.elapsed < later.elapsed

/-- One moment more in front of a run. If it has an index, that is the index before those of the run, and the run
starts later. -/
theorem Run.Advances.cons {run : Run Nat} {top : Int} {clock next : Clock} {start v : ℚ}
    (rest : run.Advances top next v) {m : Moment} {units : List Nat} {problems : List Diagnostic} {cut : Bool}
    (within : clock.Within top start) (now : m.elapsed = clock.seconds) (order : clock.index ≤ next.index)
    (notBack : start ≤ v) (own : ∀ i, m.index = some i → i = clock.index ∧ i < next.index ∧ start < v) :
    (Run.append ⟨units, [m], problems, cut, next⟩ run).Advances top clock start := by
  have amounts : Amounts (parts m.elapsed) start := by
    rw [now]
    exact within.amounts
  have reached : clock.index ≤ run.clock.index := order.trans rest.clock_le
  refine ⟨reached, fun other member => ?_, fun other member i indexed => ?_,
    fun first inFirst second inSecond i j isFirst isSecond before => ?_⟩
  · rcases List.mem_cons.mp member with rfl | member
    · refine ⟨start, amounts, le_refl start, within.bound.trans ?_⟩
      have cast : (clock.index : ℚ) ≤ run.clock.index := by exact_mod_cast reached
      have place : (0 : ℚ) < 2 ^ top := by positivity
      exact mul_le_mul_of_nonneg_right cast place.le
    · obtain ⟨w, number, later, bound⟩ := rest.times other member
      exact ⟨w, number, notBack.trans later, bound⟩
  · rcases List.mem_cons.mp member with rfl | member
    · exact (own i indexed).1.ge
    · exact order.trans (rest.indices other member i indexed)
  · rcases List.mem_cons.mp inFirst with rfl | firstInside
    · obtain ⟨rfl, _, forward⟩ := own i isFirst
      rcases List.mem_cons.mp inSecond with rfl | secondInside
      · rw [isFirst] at isSecond
        cases isSecond
        exact absurd before (Nat.lt_irrefl _)
      · obtain ⟨w, number, later, _⟩ := rest.times second secondInside
        exact lt_of_amounts amounts number (forward.trans_le later)
    · rcases List.mem_cons.mp inSecond with rfl | secondInside
      · obtain ⟨rfl, passed, _⟩ := own j isSecond
        have behind := rest.indices first firstInside i isFirst
        omega
      · exact rest.strict first firstInside second secondInside i j isFirst isSecond before

namespace Cue

variable {low : Int} {span : Nat} {cues : List Cue} {cap : Option Nat}

/-- A performance goes on in time, if its tempos are not too far apart for the number of its units. -/
theorem perform_advances (timed : ∀ cue ∈ cues, cue.TakesTime) (least : -900 ≤ low) (most : low + span ≤ 1000)
    {clock : Clock} {start : ℚ} (within : clock.Within (6 - low) start)
    (tempos : ∀ m ∈ (perform cap cues clock).moments, TempoWithin low span m.bpm)
    (few : (perform cap cues clock).clock.index * 2 ^ span ≤ 2 ^ 49) :
    (perform cap cues clock).Advances (6 - low) clock start := by
  induction cues generalizing clock start with
  | nil => exact ⟨Nat.le_refl _, nofun, nofun, nofun⟩
  | cons cue cues ih =>
    have rest : ∀ cue ∈ cues, cue.TakesTime := fun cue member => timed cue (List.mem_cons_of_mem _ member)
    cases cue with
    | strike location bpm length =>
      by_cases reached : cap.any (· ≤ clock.index) = true
      · rw [perform_strike_reached reached]
        exact ⟨Nat.le_refl _, nofun, nofun, nofun⟩
      · rw [perform_strike_free reached] at tempos few ⊢
        obtain ⟨first, others⟩ := List.forall_mem_cons.mp tempos
        have counted := perform_clock cap cues (clock.after bpm length)
        have next : (clock.after bpm length).index = clock.index + 1 := rfl
        have enough : (clock.index + 1) * 2 ^ span ≤ 2 ^ 49 := by
          refine (Nat.mul_le_mul_right _ ?_).trans few
          change _ ≤ (perform cap cues (clock.after bpm length)).clock.index
          omega
        obtain ⟨v, after, forward⟩ := within.after (timed _ List.mem_cons_self) first least most enough
        refine (ih rest after others few).cons within rfl (Nat.le_succ _) forward.le fun i indexed => ?_
        cases indexed
        exact ⟨rfl, Nat.lt_succ_self _, forward⟩
    | bar location bpm =>
      rw [perform_bar] at tempos few ⊢
      obtain ⟨_, others⟩ := List.forall_mem_cons.mp tempos
      exact (ih rest within others few).cons within rfl (Nat.le_refl _) (le_refl start) nofun
    | report problem =>
      rw [perform_report] at tempos few ⊢
      obtain ⟨clock_le, times, indices, strict⟩ := ih rest within tempos few
      exact ⟨clock_le, times, indices, strict⟩

end Cue

namespace Double

theorem add_amounts_small {x y : Float} {v w : ℚ} {k : Int} (first : Amounts (parts x) v)
    (second : Amounts (parts y) w) (small : v ≤ 2 ^ k) (small' : w ≤ 2 ^ k) (least : 0 ≤ k) (most : k ≤ 1022) :
    ∃ sum, Amounts (parts (x + y)) sum ∧ sum ≤ 2 ^ (k + 1) := by
  have bound : v + w ≤ 2 ^ (k + 1) := by
    rw [zpow_add_one₀ two_ne_zero]
    linarith
  obtain ⟨sum, added, faithful⟩ := add_amounts first second (inReach_of_le (by omega) bound)
  exact ⟨sum, added, faithful.upper (onGrid_two_zpow (by omega)) bound⟩

end Double

/-- The end of a timeline is at a finite time, if its last moment is at one that is not too large. -/
theorem endAfter_finite {low : Int} {span : Nat} {last : Moment} {v : ℚ} (amounts : Amounts (parts last.elapsed) v)
    (small : v ≤ 2 ^ (955 : Int)) (tempo : TempoWithin low span last.bpm) (least : -900 ≤ low)
    (most : low + span ≤ 1000) : (endAfter last).elapsed.isFinite = true := by
  obtain ⟨w, value, above, below⟩ := tempo
  have lowPositive : (0 : ℚ) < 2 ^ low := by positivity
  obtain ⟨u, minute, _, shorter⟩ := minute_over (amounts_of_value value (lowPositive.trans_le above)) above below
    (by omega) (by omega)
  obtain ⟨up, whole, atMost⟩ := roundUp_amounts minute
  have one : Amounts (parts 1.0) 1 := by
    have same : parts 1.0 = .finite .positive (2 ^ 52) (-52) (by decide) := rfl
    have number : (1 : ℚ) = (2 ^ 52 : Nat) * 2 ^ (-52 : Int) := by norm_num
    rw [same, number]
    exact .finite
  have power {k l : Int} (order : k ≤ l) : (2 : ℚ) ^ k ≤ 2 ^ l := zpow_le_zpow_right₀ (by norm_num) order
  have unit : (1 : ℚ) = 2 ^ (0 : Int) := (zpow_zero 2).symm
  have margin : up ≤ 2 ^ (955 : Int) := by
    have first := power (show 6 - low ≤ 954 by omega)
    have second := power (show (0 : Int) ≤ 954 by decide)
    have double : (2 : ℚ) ^ (955 : Int) = 2 ^ (954 : Int) * 2 := zpow_add_one₀ two_ne_zero 954
    rw [← unit] at second
    rw [double, mul_two]
    exact atMost.trans (add_le_add (shorter.trans first) second)
  obtain ⟨_, added, bound⟩ := add_amounts_small amounts whole small margin (by omega) (by omega)
  have second : (1 : ℚ) ≤ 2 ^ (955 + 1 : Int) := by
    rw [unit]
    exact power (by omega)
  obtain ⟨_, ends, _⟩ := add_amounts_small added one bound second (by omega) (by omega)
  exact ends.isFinite

namespace Document

variable (d : Document) (options : Options) (r : Request)

/-- The times of an answer never go back. If all of its tempos are between two powers of two, and these are not
too far apart for the number of units that are played, then all its times are finite and each unit is played later
than those before it. -/
theorem units_advance :
    Rising (d.answer options r).moments ∧
    ∀ (low : Int) (span : Nat), -900 ≤ low → low + span ≤ 1000 →
      (∀ m ∈ (d.answer options r).moments, TempoWithin low span m.bpm) →
      (d.answer options r).playableCount * 2 ^ span ≤ 2 ^ 49 →
      (∀ m ∈ (d.answer options r).moments, m.elapsed.isFinite = true) ∧
      ∀ m ∈ (d.answer options r).moments, ∀ later ∈ (d.answer options r).moments, ∀ i j,
        m.index = some i → later.index = some j → i < j → m.elapsed < later.elapsed := by
  refine ⟨d.moments_rising options r, fun low span least most tempos few => ?_⟩
  have inBody {m : Moment} (member : m ∈ (d.performance options r).moments) : m ∈ (d.answer options r).body r := by
    rw [body_moments]
    exact member
  have inAnswer {m : Moment} (member : m ∈ (d.performance options r).moments) : m ∈ (d.answer options r).moments := by
    rw [moments_close]
    exact List.mem_append_left _ (inBody member)
  rw [playableCount_eq] at few
  have timed : ∀ cue ∈ d.cues options r, cue.TakesTime := fun _ inCues => (cues_origin inCues).takesTime
  have advances : (d.performance options r).Advances (6 - low) Clock.start 0 :=
    Cue.perform_advances timed least most (Clock.start_within _) (fun m member => tempos m (inAnswer member)) few
  have origin {m : Moment} (member : m ∈ (d.answer options r).moments) :
      m ∈ (d.performance options r).moments ∨ ∃ last ∈ (d.performance options r).moments, m = endAfter last := by
    have cases' := moments_origin member
    rw [body_moments] at cases'
    exact cases'
  have played {m : Moment} {i : Nat} (member : m ∈ (d.answer options r).moments) (indexed : m.index = some i) :
      m ∈ (d.performance options r).moments := by
    rcases origin member with inside | ⟨last, _, rfl⟩
    · exact inside
    · cases indexed
  refine ⟨fun m member => ?_, fun m member later member' i j isFirst isSecond before =>
    advances.strict m (played member isFirst) later (played member' isSecond) i j isFirst isSecond before⟩
  rcases origin member with inside | ⟨last, inside, rfl⟩
  · obtain ⟨v, amounts, _⟩ := advances.times m inside
    exact amounts.isFinite
  · obtain ⟨v, amounts, _, bound⟩ := advances.times last inside
    refine endAfter_finite amounts (bound.trans ?_) (tempos last (inAnswer inside)) least most
    have units : (d.performance options r).clock.index ≤ 2 ^ 49 :=
      (Nat.le_mul_of_pos_right _ (Nat.two_pow_pos span)).trans few
    have count : ((d.performance options r).clock.index : ℚ) ≤ 2 ^ (49 : Int) := by exact_mod_cast units
    have place : (2 : ℚ) ^ (6 - low) ≤ 2 ^ (906 : Int) := zpow_le_zpow_right₀ (by norm_num) (by omega)
    have split : (2 : ℚ) ^ (955 : Int) = 2 ^ (49 : Int) * 2 ^ (906 : Int) := by
      rw [← zpow_add₀ two_ne_zero]
      congr 1
    rw [split]
    gcongr

theorem verse_advances :
    (verseAndChorus.answer ⟨120.0, none⟩ (.whole [.playing "verse" 2])).playableCount * 2 ^ 1 ≤ 2 ^ 49 ∧
    (∀ m ∈ (verseAndChorus.answer ⟨120.0, none⟩ (.whole [.playing "verse" 2])).moments, TempoWithin 6 1 m.bpm) ∧
    (∀ m ∈ (verseAndChorus.answer ⟨120.0, none⟩ (.whole [.playing "verse" 2])).moments, m.elapsed.isFinite = true) ∧
    ∃ m later, (verseAndChorus.answer ⟨120.0, none⟩ (.whole [.playing "verse" 2])).moments[0]? = some m ∧
      (verseAndChorus.answer ⟨120.0, none⟩ (.whole [.playing "verse" 2])).moments[1]? = some later ∧
      m.elapsed < later.elapsed := by
  obtain ⟨_, advances⟩ := units_advance verseAndChorus ⟨120.0, none⟩ (.whole [.playing "verse" 2])
  have moments : (verseAndChorus.answer ⟨120.0, none⟩ (.whole [.playing "verse" 2])).moments =
      [⟨.column 0 0 0, 120.0, .quarter, 0.0, some 0⟩, ⟨.column 0 0 0, 120.0, .quarter, 0.5, some 1⟩,
        ⟨.column 0 0 1, 120.0, .quarter, 2.5, none⟩] := rfl
  have count : (verseAndChorus.answer ⟨120.0, none⟩ (.whole [.playing "verse" 2])).playableCount = 2 := rfl
  have tempo : TempoWithin 6 1 120.0 := by
    have parted : Binary.ofFloat 120.0 = .finite false (120 * 2 ^ 46) (-46) := rfl
    refine ⟨120, ?_, by norm_num, by norm_num⟩
    rw [parted, Binary.value?]
    norm_num
  have few : (verseAndChorus.answer ⟨120.0, none⟩ (.whole [.playing "verse" 2])).playableCount * 2 ^ 1 ≤ 2 ^ 49 := by
    rw [count]
    decide
  have within : ∀ m ∈ (verseAndChorus.answer ⟨120.0, none⟩ (.whole [.playing "verse" 2])).moments,
      TempoWithin 6 1 m.bpm := by
    rw [moments]
    intro m member
    simp only [List.mem_cons, List.not_mem_nil, or_false] at member
    rcases member with rfl | rfl | rfl <;> exact tempo
  obtain ⟨finite, strict⟩ := advances 6 1 (by decide) (by decide) within few
  rw [moments] at strict
  have first := strict _ List.mem_cons_self
  have second := first _ (List.mem_cons_of_mem _ List.mem_cons_self) 0 1 rfl rfl Nat.one_pos
  exact ⟨few, within, finite, _, _, rfl, rfl, second⟩

/-- A measure line in the middle sets a tempo at which a column lasts less than a double can tell from nothing by
then. -/
def hurried : Document :=
  { sections := [{ id := "verse", title := "Verse", subsections := [{
      content := .tab [.playable "a" "quarter", { Column.measureLine "m" none with effects := "1e20" },
        .playable "b" "quarter", .playable "c" "quarter"] }] }] }

/-- Where tempos are too far apart, a unit can stand at the time of the one before it. -/
theorem hurried_stands :
    ∃ m ∈ (hurried.answer ⟨120.0, none⟩ (.whole [.playing "verse" 1])).moments,
    ∃ later ∈ (hurried.answer ⟨120.0, none⟩ (.whole [.playing "verse" 1])).moments,
      m.index = some 1 ∧ later.index = some 2 ∧ later.elapsed = m.elapsed := by
  decide +kernel

end Document

end Tablature
