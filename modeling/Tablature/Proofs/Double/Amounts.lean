import Tablature.Proofs.Double.Whole

namespace Tablature.Double

open Float.Model Float.Model.UnpackedFloat

/-- The parts are those of this number, which is not below zero. -/
inductive Amounts : UnpackedFloat → ℚ → Prop
  | zero : Amounts (.zero .positive) 0
  | finite {m : Nat} {e : Int} {positive : 0 < m} : Amounts (.finite .positive m e positive) (m * 2 ^ e)

/-- The number has at most 53 bits, or is a power of two, and none of its bits is below the last place of a
double. -/
def OnGrid (z : ℚ) : Prop :=
  ∃ (n : Nat) (f : Int), n ≤ 2 ^ 53 ∧ -1074 ≤ f ∧ z = n * 2 ^ f

/-- Between the two numbers, of which one was rounded to the other, there is none of the grid. -/
structure Faithful (rounded v : ℚ) : Prop where
  lower : ∀ {z : ℚ}, OnGrid z → z ≤ v → z ≤ rounded
  upper : ∀ {z : ℚ}, OnGrid z → v ≤ z → rounded ≤ z

theorem Faithful.refl (v : ℚ) : Faithful v v :=
  ⟨fun _ below => below, fun _ above => above⟩

/-- The number is not larger than the largest double. -/
def InReach (v : ℚ) : Prop :=
  v ≤ (2 ^ 53 - 1 : Nat) * 2 ^ (971 : Int)

theorem inReach_of_le {v : ℚ} {k : Int} (reach : k ≤ 1023) (bound : v ≤ 2 ^ k) : InReach v := by
  calc v ≤ 2 ^ k := bound
    _ ≤ 2 ^ (52 + 971 : Int) := zpow_le_zpow_right₀ (by norm_num) (by omega)
    _ = 2 ^ (52 : Int) * 2 ^ (971 : Int) := zpow_add₀ two_ne_zero _ _
    _ ≤ (2 ^ 53 - 1 : Nat) * 2 ^ (971 : Int) := by
      gcongr
      norm_num

theorem onGrid_two_zpow {k : Int} (low : -1074 ≤ k) : OnGrid (2 ^ k) :=
  ⟨1, k, by decide, low, by rw [Nat.cast_one, one_mul]⟩

theorem two_zpow_split {e f : Int} (below : f ≤ e) : (2 : ℚ) ^ e = (2 ^ (e - f).toNat : Nat) * 2 ^ f := by
  rw [Nat.cast_pow, Nat.cast_ofNat, ← zpow_natCast, ← zpow_add₀ two_ne_zero]
  congr 1
  omega

/-- A number with all its bits is not less than what has them at lower places. -/
theorem below_full {n q : Nat} {f p : Int} (short : n ≤ 2 ^ 53) (full : 2 ^ 52 ≤ q) (below : f < p) :
    (n : ℚ) * 2 ^ f ≤ q * 2 ^ p := by
  have bits : (n : ℚ) ≤ 2 ^ 53 := by exact_mod_cast short
  have many : (2 : ℚ) ^ 52 ≤ q := by exact_mod_cast full
  have place : (2 : ℚ) ^ f ≤ 2 ^ (p - 1) := zpow_le_zpow_right₀ (by norm_num) (by omega)
  calc (n : ℚ) * 2 ^ f ≤ 2 ^ 53 * 2 ^ (p - 1) := by gcongr
    _ = 2 ^ 52 * 2 ^ p := by
      rw [zpow_sub_one₀ two_ne_zero]
      ring
    _ ≤ q * 2 ^ p := by gcongr

section Rounding

variable {v : ℚ} {m q r : Nat} {e p : Int} {accuracy : Accuracy}

/-- To cut a number to 53 bits and to go up from there by one at most is faithful, if what needs no cut is kept. -/
theorem faithful_of_cut (full : p ≠ -1074 → 2 ^ 52 ≤ q) (floor : q * 2 ^ p ≤ v)
    (ceiling : v < (q + 1) * 2 ^ p) (least : q ≤ r) (most : r ≤ q + 1) (exact' : v = q * 2 ^ p → r = q) :
    Faithful (r * 2 ^ p) v := by
  have unit : (0 : ℚ) < 2 ^ p := by positivity
  have kept : (q : ℚ) * 2 ^ p ≤ r * 2 ^ p := by gcongr
  -- A number of the grid either is a multiple of the last place that is kept, or is no more than what is cut.
  have multiple {z : ℚ} (grid : OnGrid z) : (∃ j : Nat, z = j * 2 ^ p) ∨ z ≤ q * 2 ^ p := by
    obtain ⟨n, f, short, _, rfl⟩ := grid
    rcases le_or_gt p f with above | below
    · refine Or.inl ⟨n * 2 ^ (f - p).toNat, ?_⟩
      rw [two_zpow_split above, Nat.cast_mul, mul_assoc]
    · exact Or.inr (below_full short (full (by omega)) below)
  constructor
  · intro z grid below
    rcases multiple grid with ⟨j, rfl⟩ | short
    · have fewer : (j : ℚ) < (q + 1 : Nat) := by
        rw [Nat.cast_succ]
        exact lt_of_mul_lt_mul_right (below.trans_lt ceiling) unit.le
      have notMore : j ≤ q := Nat.le_of_lt_succ (by exact_mod_cast fewer)
      refine LE.le.trans ?_ kept
      gcongr
    · exact short.trans kept
  · intro z grid above
    by_cases same : v = q * 2 ^ p
    · rw [exact' same, ← same]
      exact above
    · have cut : q * 2 ^ p < v := lt_of_le_of_ne floor (Ne.symm same)
      rcases multiple grid with ⟨j, rfl⟩ | short
      · have more : (q : ℚ) < j := lt_of_mul_lt_mul_right (cut.trans_le above) unit.le
        have next : r ≤ j := most.trans (Nat.succ_le_of_lt (by exact_mod_cast more))
        gcongr
      · exact absurd (cut.trans_le above) short.not_gt

theorem kept_exact (m : Nat) (k : Nat) (at' : precision (m * 2 ^ k) e = e + k) : kept (m * 2 ^ k) e .exact = m := by
  rw [kept, at', show (e + (k : Int) - e).toNat = k by omega, shiftRight_exact]
  rfl

/-- What is left of a number when its mantissa is rounded. -/
theorem kept_faithful (below : e ≤ precision m e) (floor : m * 2 ^ e ≤ v) (ceiling : v < (m + 1) * 2 ^ e)
    (exact' : v = m * 2 ^ e → accuracy = .exact) :
    Faithful (kept m e accuracy * 2 ^ precision m e) v := by
  obtain ⟨k, place⟩ : ∃ k : Nat, precision m e = e + k := ⟨(precision m e - e).toNat, by omega⟩
  have moved : (precision m e - e).toNat = k := by omega
  have between := kept_between (m := m) (e := e) accuracy
  have full := cut_full (m := m) below
  have unit : (0 : ℚ) < 2 ^ e := by positivity
  have scale : (2 : ℚ) ^ (e + (k : Int)) = 2 ^ k * 2 ^ e := by
    rw [zpow_add₀ two_ne_zero, zpow_natCast, mul_comm]
  rw [moved] at between full
  have parted := Nat.div_add_mod m (2 ^ k)
  have rest : m % 2 ^ k < 2 ^ k := Nat.mod_lt _ (Nat.two_pow_pos k)
  have lower : m / 2 ^ k * 2 ^ k ≤ m := Nat.div_mul_le_self m (2 ^ k)
  have upper : m + 1 ≤ (m / 2 ^ k + 1) * 2 ^ k := by
    rw [Nat.succ_mul, Nat.mul_comm]
    omega
  refine faithful_of_cut full ?_ ?_ between.1 between.2 fun same => ?_
  · refine LE.le.trans ?_ floor
    rw [place, scale, ← mul_assoc]
    gcongr
    exact_mod_cast lower
  · refine ceiling.trans_le ?_
    rw [place, scale, ← mul_assoc]
    gcongr
    exact_mod_cast upper
  · rw [place, scale, ← mul_assoc] at same
    have whole : m = m / 2 ^ k * 2 ^ k := by
      have least : (m : ℚ) ≤ (m / 2 ^ k : Nat) * 2 ^ k := le_of_mul_le_mul_right (floor.trans_eq same) unit
      exact Nat.le_antisymm (by exact_mod_cast least) lower
    have number : v = m * 2 ^ e := by
      rw [same]
      congr 1
      exact_mod_cast whole.symm
    rw [exact' number]
    have kept := kept_exact (e := e) (m / 2 ^ k) k (by rw [← whole, place])
    rwa [← whole] at kept

theorem carried_rounded (low : -1074 ≤ p) (full : p ≠ -1074 → 2 ^ 52 ≤ r) : Rounded (carried .positive r p) := by
  unfold carried
  split
  · trivial
  · split
    · next short => exact ⟨short, low, full⟩
    · exact ⟨by decide, by omega, fun _ => Nat.le_refl _⟩

theorem Faithful.inReach {rounded : ℚ} (faithful : Faithful rounded v) (small : InReach v) : InReach rounded :=
  faithful.upper ⟨2 ^ 53 - 1, 971, Nat.sub_le _ _, by decide, rfl⟩ small

theorem InReach.place (small : InReach (m * 2 ^ e)) (many : 2 ^ 52 ≤ m) : e ≤ 971 := by
  by_contra above
  have bits : (2 : ℚ) ^ 52 ≤ m := by exact_mod_cast many
  have step : (2 : ℚ) ^ (971 + 1 : Int) ≤ 2 ^ e := zpow_le_zpow_right₀ (by norm_num) (by omega)
  have unit : (0 : ℚ) < 2 ^ (971 : Int) := by positivity
  rw [zpow_add_one₀ two_ne_zero] at step
  have beyond : (2 : ℚ) ^ 52 * (2 ^ (971 : Int) * 2) ≤ (2 ^ 53 - 1 : Nat) * 2 ^ (971 : Int) := by
    refine LE.le.trans ?_ small
    gcongr
  have most : ((2 ^ 53 - 1 : Nat) : ℚ) = 2 ^ 53 - 1 := by norm_num
  rw [most] at beyond
  generalize (2 : ℚ) ^ (971 : Int) = last at unit beyond
  linarith

/-- Numbers that are not too large do not become infinite. -/
theorem carried_amounts (most : r ≤ 2 ^ 53) (full : p ≠ -1074 → 2 ^ 52 ≤ r) (small : InReach (r * 2 ^ p)) :
    Amounts (clip (carried .positive r p)) (r * 2 ^ p) := by
  unfold carried
  split
  · next none =>
    rw [none, Nat.cast_zero, zero_mul]
    exact .zero
  · split
    · next some short =>
      have inRange : ¬971 < p := by
        intro large
        have bound := small.place (full (by omega))
        omega
      rw [clip, if_neg inRange]
      exact .finite
    · next some long =>
      have whole : r = 2 ^ 53 := by omega
      have doubled : (r : ℚ) * 2 ^ p = (2 ^ 52 : Nat) * 2 ^ (p + 1) := by
        rw [whole, zpow_add_one₀ two_ne_zero]
        push_cast
        ring
      rw [doubled] at small ⊢
      have bound := small.place (Nat.le_refl _)
      rw [clip, if_neg (by omega)]
      exact .finite

theorem roundWithAccuracy_amounts (below : e ≤ precision m e) (floor : m * 2 ^ e ≤ v)
    (ceiling : v < (m + 1) * 2 ^ e) (exact' : v = m * 2 ^ e → accuracy = .exact) (small : InReach v) :
    ∃ rounded, Amounts (UnpackedFloat.unpack Format.binary64 (UnpackedFloat.pack Format.binary64
      (roundWithAccuracy Format.binary64 .positive m e accuracy))) rounded ∧ Faithful rounded v := by
  have faithful := kept_faithful below floor ceiling exact'
  have full := kept_full accuracy below
  have most : kept m e accuracy ≤ 2 ^ 53 := Nat.le_trans (kept_between accuracy).2 (cut_short m e)
  have least : -1074 ≤ precision m e := Int.le_max_right _ _
  rw [roundWithAccuracy_eq accuracy .positive below, unpack_pack (carried_rounded least full)]
  exact ⟨_, carried_amounts most full (faithful.inReach small), faithful⟩

theorem roundWithAccuracy_whole (below : e ≤ precision m e) (small : InReach (m * 2 ^ e)) :
    ∃ rounded, Amounts (UnpackedFloat.unpack Format.binary64 (UnpackedFloat.pack Format.binary64
      (roundWithAccuracy Format.binary64 .positive m e .exact))) rounded ∧ Faithful rounded (m * 2 ^ e) := by
  have unit : (0 : ℚ) < 2 ^ e := by positivity
  exact roundWithAccuracy_amounts below (le_refl _) (by linarith) (fun _ => rfl) small

theorem round_amounts (positive : 0 < m) (small : InReach (m * 2 ^ e)) :
    ∃ rounded, Amounts (UnpackedFloat.unpack Format.binary64 (UnpackedFloat.pack Format.binary64
      (UnpackedFloat.round Format.binary64 .positive m e))) rounded ∧ Faithful rounded (m * 2 ^ e) := by
  have scaled : ((m * 2 ^ (e - precision m e).toNat : Nat) : ℚ) * 2 ^ (e - ((e - precision m e).toNat : Int)) =
      m * 2 ^ e := by
    have split := two_zpow_split (e := e) (f := e - ((e - precision m e).toNat : Int)) (by omega)
    rw [show e - (e - ((e - precision m e).toNat : Int)) = (e - precision m e).toNat by omega,
      Int.toNat_natCast] at split
    rw [split, Nat.cast_mul, mul_assoc]
  rw [UnpackedFloat.round, targetExponent_eq, decreaseExponent, Nat.shiftLeft_eq]
  rw [← scaled] at small ⊢
  refine roundWithAccuracy_whole ?_ small
  rw [precision_mul positive]
  omega

end Rounding

section Arithmetic

variable {x y : Float} {v w : ℚ}

theorem Amounts.nonneg {f : UnpackedFloat} (amounts : Amounts f v) : 0 ≤ v := by
  cases amounts with
  | zero => exact le_refl 0
  | finite => positivity

theorem Amounts.isFinite (amounts : Amounts (parts x) v) : x.isFinite = true := by
  have finite : x.isFinite = (parts x).isFinite := rfl
  rw [finite]
  generalize parts x = f at amounts
  cases amounts <;> rfl

theorem unpack_pack_parts (x : Float) :
    UnpackedFloat.unpack Format.binary64 (UnpackedFloat.pack Format.binary64 (parts x)) = parts x := by
  rw [unpack_pack (isDouble_parts x).rounded, (isDouble_parts x).inRange]

/-- After a number that is not too large the next one of the grid is not far. -/
theorem Amounts.next {f : UnpackedFloat} (amounts : Amounts f v) (double : IsDouble f) {k : Int} (low : -1074 ≤ k)
    (short : v < 2 ^ (k + 53)) : ∃ next, OnGrid next ∧ v < next ∧ next ≤ v + 2 ^ k := by
  cases amounts with
  | zero => exact ⟨2 ^ k, onGrid_two_zpow low, by positivity, (zero_add _).ge⟩
  | @finite m e positive =>
    obtain ⟨⟨bits, least, full⟩, _⟩ := double.fits
    have place : e ≤ k := by
      by_cases last : e = -1074
      · omega
      · have many : (2 : ℚ) ^ (52 : Int) ≤ m := by exact_mod_cast full last
        have power : (2 : ℚ) ^ (52 + e) < 2 ^ (k + 53) := by
          rw [zpow_add₀ two_ne_zero]
          refine LE.le.trans_lt ?_ short
          gcongr
        have order := (zpow_lt_zpow_iff_right₀ (by norm_num : (1 : ℚ) < 2)).mp power
        omega
    have unit : (0 : ℚ) < 2 ^ e := by positivity
    have step : (2 : ℚ) ^ e ≤ 2 ^ k := zpow_le_zpow_right₀ (by norm_num) place
    have successor : ((m + 1 : Nat) : ℚ) * 2 ^ e = m * 2 ^ e + 2 ^ e := by
      push_cast
      ring
    refine ⟨(m + 1 : Nat) * 2 ^ e, ⟨m + 1, e, bits, least, rfl⟩, ?_, ?_⟩
    · rw [successor]
      exact lt_add_of_pos_right _ unit
    · rw [successor]
      gcongr

/-- A sum is rounded faithfully. -/
theorem add_amounts (first : Amounts (parts x) v) (second : Amounts (parts y) w) (small : InReach (v + w)) :
    ∃ sum, Amounts (parts (x + y)) sum ∧ Faithful sum (v + w) := by
  have parted : parts (x + y) = UnpackedFloat.unpack Format.binary64
      (UnpackedFloat.pack Format.binary64 (UnpackedFloat.add Format.binary64 (parts x) (parts y))) := rfl
  have sameX := unpack_pack_parts x
  have sameY := unpack_pack_parts y
  rw [parted]
  generalize parts x = f at first sameX
  generalize parts y = g at second sameY
  cases first with
  | zero =>
    rw [zero_add] at small ⊢
    have sum : UnpackedFloat.add Format.binary64 (.zero .positive) g = g := by cases second <;> rfl
    rw [sum, sameY]
    exact ⟨w, second, .refl w⟩
  | @finite m e positive =>
    cases second with
    | zero =>
      rw [add_zero] at small ⊢
      have sum : UnpackedFloat.add Format.binary64 (.finite .positive m e positive) (.zero .positive) =
          .finite .positive m e positive := rfl
      rw [sum, sameX]
      exact ⟨_, .finite, .refl _⟩
    | @finite n p positive' =>
      have joined : (m : ℚ) * 2 ^ e + n * 2 ^ p =
          (m * 2 ^ (e - min e p).toNat + n * 2 ^ (p - min e p).toNat : Nat) * 2 ^ min e p := by
        rw [two_zpow_split (Int.min_le_left e p), two_zpow_split (Int.min_le_right e p)]
        push_cast
        ring
      rw [joined] at small ⊢
      rw [add_finite]
      have scaled := Nat.mul_pos positive (Nat.two_pow_pos (e - min e p).toNat)
      exact round_amounts (by omega) small

section Quotients

variable {m n : Nat} {e f : Int}

/-- A quotient is developed to all the bits that a double keeps. -/
theorem divCore_bits (positive : 0 < m) (positive' : 0 < n) {t : Int}
    (place : t = min (e - f) (max ((m.log2 + e) - (n.log2 + f) - 53) (-1074))) :
    t ≤ precision (m * 2 ^ (e - f - t).toNat / n) t := by
  unfold precision
  by_cases least : t ≤ -1074
  · omega
  · have bits : 2 ^ 52 ≤ m * 2 ^ (e - f - t).toNat / n := by
      refine (Nat.le_div_iff_mul_le positive').mpr ?_
      have low : 2 ^ m.log2 ≤ m := Nat.log2_self_le positive.ne'
      have high : n < 2 ^ (n.log2 + 1) := Nat.lt_log2_self
      calc 2 ^ 52 * n ≤ 2 ^ 52 * 2 ^ (n.log2 + 1) := Nat.mul_le_mul_left _ high.le
        _ = 2 ^ (52 + (n.log2 + 1)) := (Nat.pow_add ..).symm
        _ ≤ 2 ^ (m.log2 + (e - f - t).toNat) := Nat.pow_le_pow_right (by decide) (by omega)
        _ = 2 ^ m.log2 * 2 ^ (e - f - t).toNat := Nat.pow_add ..
        _ ≤ m * 2 ^ (e - f - t).toNat := Nat.mul_le_mul_right _ low
    have many := (Nat.le_log2 (by omega)).mpr bits
    omega

/-- A quotient is developed as a quotient of whole numbers, and its rest tells how it is rounded. -/
theorem div_developed (positive : 0 < m) (positive' : 0 < n) : ∃ (scaled : Nat) (t : Int),
    UnpackedFloat.div Format.binary64 (.finite .positive m e positive) (.finite .positive n f positive') =
        roundWithAccuracy Format.binary64 .positive (scaled / n) t (accuracyOfFraction (scaled % n) n) ∧
      t ≤ precision (scaled / n) t ∧ (m : ℚ) * 2 ^ e / (n * 2 ^ f) = scaled / n * 2 ^ t := by
  obtain ⟨t, place⟩ : ∃ t : Int, t = min (e - f) (max ((m.log2 + e) - (n.log2 + f) - 53) (-1074)) := ⟨_, rfl⟩
  have target : min (e - f) (Format.binary64.targetExponent (totalExponent m e - totalExponent n f)) = t := by
    change min (e - f) (max ((m.log2 + 1 + e : Int) - (n.log2 + 1 + f) - 53) (-1074)) = t
    omega
  refine ⟨m * 2 ^ (e - f - t).toNat, t, ?_, divCore_bits positive positive' place, ?_⟩
  · simp only [UnpackedFloat.div, divCore, target, Nat.shiftLeft_eq]
    rfl
  · have divisor : (0 : ℚ) < n := by exact_mod_cast positive'
    have split := two_zpow_split (e := e) (f := f + t) (by omega)
    rw [show (e - (f + t)).toNat = (e - f - t).toNat by omega] at split
    rw [split, ← mul_assoc, ← Nat.cast_mul, zpow_add₀ two_ne_zero]
    field_simp

/-- A quotient is rounded faithfully. -/
theorem div_amounts (first : Amounts (parts x) v) (second : Amounts (parts y) w) (positive : 0 < v) (positive' : 0 < w)
    (small : InReach (v / w)) : ∃ quotient, Amounts (parts (x / y)) quotient ∧ Faithful quotient (v / w) := by
  have parted : parts (x / y) = UnpackedFloat.unpack Format.binary64
      (UnpackedFloat.pack Format.binary64 (UnpackedFloat.div Format.binary64 (parts x) (parts y))) := rfl
  rw [parted]
  generalize parts x = a at first
  generalize parts y = b at second
  cases first with
  | zero => exact absurd positive (lt_irrefl 0)
  | @finite m e some =>
    cases second with
    | zero => exact absurd positive' (lt_irrefl 0)
    | @finite n f some' =>
      obtain ⟨scaled, t, quotient, below, exactly⟩ := div_developed some some'
      have divisor : (0 : ℚ) < n := by exact_mod_cast some'
      have unit : (0 : ℚ) < 2 ^ t := by positivity
      rw [exactly] at small ⊢
      rw [quotient]
      refine roundWithAccuracy_amounts below ?_ ?_ (fun same => ?_) small
      · gcongr
        exact Nat.cast_div_le
      · gcongr
        rw [div_lt_iff₀ divisor, mul_comm]
        exact_mod_cast Nat.lt_mul_div_succ scaled some'
      · have whole : (scaled : ℚ) = (scaled / n : Nat) * n :=
          (div_eq_iff divisor.ne').mp (mul_right_cancel₀ unit.ne' same)
        have parted := Nat.div_add_mod' scaled n
        have rest : scaled % n = 0 := by
          have equal : scaled = scaled / n * n := by exact_mod_cast whole
          omega
        rw [rest, accuracyOfFraction, if_pos rfl]

end Quotients

section Comparing

/-- The rank of a number that is not below zero grows with it. -/
theorem Amounts.rank_le {f g : UnpackedFloat} (first : Amounts f v) (second : Amounts g w) (double : IsDouble f)
    (double' : IsDouble g) (order : rank f ≤ rank g) : v ≤ w := by
  cases first with
  | zero => exact second.nonneg
  | @finite m e positive =>
    obtain ⟨⟨short, low, full⟩, _⟩ := double.fits
    cases second with
    | zero => exact absurd (rank_positive double).1 (Int.not_lt.mpr order)
    | @finite n p positive' =>
      obtain ⟨⟨short', low', full'⟩, _⟩ := double'.fits
      simp only [rank, Sign.apply] at order
      rcases Int.lt_trichotomy e p with below | rfl | above
      · exact below_full short.le (full' (by omega)) below
      · have fewer : m ≤ n := by omega
        gcongr
      · omega

theorem Amounts.number {f : UnpackedFloat} (amounts : Amounts f v) : f ≠ .notANumber := by
  cases amounts <;> exact nofun

/-- Doubles are ordered as the numbers that they are. -/
theorem lt_of_amounts (first : Amounts (parts x) v) (second : Amounts (parts y) w) (less : v < w) : x < y := by
  have order : rank (parts x) < rank (parts y) := by
    refine Int.not_le.mp fun back => ?_
    exact less.not_ge (second.rank_le first (isDouble_parts y) (isDouble_parts x) back)
  have compared : x < y ↔ UnpackedFloat.lt (parts x) (parts y) = true := decide_eq_true_iff
  rw [compared, UnpackedFloat.lt, compare_eq first.number second.number (isDouble_parts x) (isDouble_parts y),
    Int.compare_eq_lt.mpr order]
  rfl

end Comparing

section Integers

variable {m n : Nat} {e : Int}

/-- Whole numbers of at most 53 bits are doubles, and so they are when they are shifted up. -/
theorem amounts_ofNat_scaled (short : n < 2 ^ 53) {j : Nat} (high : j ≤ 971) :
    Amounts (parts (Float.ofNat (n * 2 ^ j))) (n * 2 ^ j) := by
  rcases Nat.eq_zero_or_pos n with rfl | present
  · rw [Nat.zero_mul, Nat.cast_zero, zero_mul]
    exact .zero
  · obtain ⟨k, scaled, same⟩ := parts_ofNat_scaled present short high
    have number : (n : ℚ) * 2 ^ j = (n * 2 ^ k : Nat) * 2 ^ ((j : Int) - k) := by
      rw [zpow_sub₀ two_ne_zero, zpow_natCast, zpow_natCast]
      push_cast
      field_simp
    rw [same, number]
    exact .finite

theorem amounts_ofNat (short : n < 2 ^ 53) : Amounts (parts (Float.ofNat n)) n := by
  have amounts := amounts_ofNat_scaled short (Nat.zero_le 971)
  rwa [Nat.pow_zero, Nat.mul_one, pow_zero, mul_one] at amounts

theorem roundUp_finite (bits : Binary.ofFloat x = .finite false m e) (short : m < 2 ^ 53)
    (amounts : Amounts (parts x) (m * 2 ^ e)) : ∃ up, Amounts (parts (roundUp x)) up ∧ up ≤ m * 2 ^ e + 1 := by
  by_cases whole : 0 ≤ e
  · have same : roundUp x = x := by simp only [roundUp, bits, if_pos whole]
    rw [same]
    exact ⟨_, amounts, by linarith⟩
  · obtain ⟨unit, isUnit⟩ : ∃ unit : Nat, unit = Nat.pow 2 e.natAbs := ⟨_, rfl⟩
    have some : 0 < unit := by
      rw [isUnit]
      exact Nat.two_pow_pos e.natAbs
    have same : roundUp x = Float.ofNat ((m + (unit - 1)) / unit) := by
      simp only [roundUp, bits, if_neg whole, ← isUnit]
      rfl
    have place : (2 : ℚ) ^ e = (unit : ℚ)⁻¹ := by
      have cast : (unit : ℚ) = 2 ^ e.natAbs := by
        rw [isUnit]
        exact_mod_cast rfl
      rw [cast, ← zpow_natCast, ← zpow_neg]
      congr 1
      omega
    have positive : (0 : ℚ) < unit := by exact_mod_cast some
    have most : (m + (unit - 1)) / unit * unit ≤ m + unit :=
      (Nat.div_mul_le_self _ _).trans (by omega)
    have bound : (((m + (unit - 1)) / unit : Nat) : ℚ) * unit ≤ m + unit := by exact_mod_cast most
    rw [same]
    refine ⟨_, amounts_ofNat (ceiling_small short some), ?_⟩
    rw [place, ← div_eq_mul_inv, div_add_one positive.ne', le_div_iff₀ positive]
    exact bound

/-- To round up is to add less than one. -/
theorem roundUp_amounts (amounts : Amounts (parts x) v) : ∃ up, Amounts (parts (roundUp x)) up ∧ up ≤ v + 1 := by
  have bits := ofFloat_eq x
  have double := isDouble_parts x
  have kept := amounts
  generalize parts x = f at amounts bits double
  cases amounts with
  | zero =>
    have none : (0 : ℚ) = (0 : Nat) * 2 ^ (-1074 : Int) := by rw [Nat.cast_zero, zero_mul]
    rw [none] at kept ⊢
    exact roundUp_finite bits (by decide) kept
  | finite => exact roundUp_finite bits double.fits.1.short kept

end Integers

end Arithmetic

end Tablature.Double
