import BehaviorTree.Binary64.Shortest
import Mathlib.Algebra.Order.Field.Power
import Mathlib.Data.Rat.Cast.Order
import Mathlib.Tactic.Linarith
import Mathlib.Tactic.NormNum
import Mathlib.Tactic.Positivity

/-! # Shortest decimals lie beside their words

The search for the fewest digits ends on a grid that has a point in the interval of the word: at the
latest on the fortieth grid, whose step is less than half the width of the interval. The intervals
of two words have at most an end in common, and then only one of them holds it. So the shortest
decimal belongs to one magnitude alone (`magnitude_eq_of_value_eq`). -/

namespace BehaviorTree.Binary64

/-- The number that a decimal stands for. -/
def Decimal.value (d : Decimal) : ℚ := d.digits * (10 : ℚ) ^ d.exponent

theorem zpow_eq_div {b : ℚ} (hb : b ≠ 0) (p : Int) :
    b ^ p = b ^ p.toNat / b ^ (-p).toNat := by
  rw [← zpow_natCast, ← zpow_natCast, ← zpow_sub₀ hb]
  congr 1
  omega

namespace Interval

variable {i : Interval} {tie : Tie} {v : ℚ}

def lower (i : Interval) : ℚ := i.low / i.unit

def upper (i : Interval) : ℚ := i.high / i.unit

/-- A number lies in an interval, on an end only if the interval is closed. -/
def Holds (i : Interval) (v : ℚ) : Prop :=
  if i.closed then i.lower ≤ v ∧ v ≤ i.upper else i.lower < v ∧ v < i.upper

theorem Holds.le (h : i.Holds v) : i.lower ≤ v ∧ v ≤ i.upper := by
  unfold Holds at h
  split at h
  · exact h
  · exact ⟨h.1.le, h.2.le⟩

theorem Holds.closed_of_end (h : i.Holds v) (hend : v = i.lower ∨ v = i.upper) :
    i.closed = true := by
  by_contra hopen
  rw [Holds, if_neg hopen] at h
  rcases hend with rfl | rfl
  · exact lt_irrefl _ h.1
  · exact lt_irrefl _ h.2

/-! ## Grids -/

/-- A fraction stands below a point of a grid. -/
theorem div_le_grid_iff {unit : Nat} (hunit : 0 < unit) (a k : Nat) (p : Int) :
    (a / unit : ℚ) ≤ k * (10 : ℚ) ^ p ↔
      a * Nat.pow 10 (-p).toNat ≤ k * (unit * Nat.pow 10 p.toNat) := by
  have hunit' : (0 : ℚ) < unit := by exact_mod_cast hunit
  rw [zpow_eq_div (by norm_num), ← mul_div_assoc, div_le_div_iff₀ hunit' (by positivity),
    Nat.pow_eq, Nat.pow_eq, ← @Nat.cast_le ℚ]
  push_cast
  rw [mul_assoc, mul_comm (unit : ℚ)]

theorem grid_le_div_iff {unit : Nat} (hunit : 0 < unit) (a k : Nat) (p : Int) :
    k * (10 : ℚ) ^ p ≤ (a / unit : ℚ) ↔
      k * (unit * Nat.pow 10 p.toNat) ≤ a * Nat.pow 10 (-p).toNat := by
  have hunit' : (0 : ℚ) < unit := by exact_mod_cast hunit
  rw [zpow_eq_div (by norm_num), ← mul_div_assoc, div_le_div_iff₀ (by positivity) hunit',
    Nat.pow_eq, Nat.pow_eq, ← @Nat.cast_le ℚ]
  push_cast
  rw [mul_assoc, mul_comm (unit : ℚ)]

/-- Whether the interval holds the `k`-th point of a grid, in integers. -/
theorem holds_grid_iff (hunit : 0 < i.unit) (k : Nat) (p : Int) :
    i.Holds (k * (10 : ℚ) ^ p) ↔
      (let up := Nat.pow 10 (-p).toNat
       let step := i.unit * Nat.pow 10 p.toNat
       if i.closed then i.low * up ≤ k * step && k * step ≤ i.high * up
       else i.low * up < k * step && k * step < i.high * up) = true := by
  dsimp only
  unfold Holds lower upper
  split
  · rw [div_le_grid_iff hunit, grid_le_div_iff hunit, Bool.and_eq_true, decide_eq_true_eq,
      decide_eq_true_eq]
  · rw [← not_le, ← not_le, div_le_grid_iff hunit, grid_le_div_iff hunit, not_le, not_le,
      Bool.and_eq_true, decide_eq_true_eq, decide_eq_true_eq]

/-- What is found on a grid lies in the interval. -/
theorem holds_of_onGrid? (hunit : 0 < i.unit) {p : Int} {k : Nat} (h : i.onGrid? tie p = some k) :
    i.Holds (k * (10 : ℚ) ^ p) := by
  rw [holds_grid_iff hunit]
  unfold onGrid? at h
  dsimp only at h
  split at h
  · cases h
  · cases h
    assumption
  · cases h
    assumption
  · split at h
    · cases h
      assumption
    split at h
    · cases h
      assumption
    cases tie with
    | up =>
        cases h
        assumption
    | even =>
        cases h
        rcases Nat.mod_two_eq_zero_or_one
          (i.middle * Nat.pow 10 (-p).toNat / (i.unit * Nat.pow 10 p.toNat)) with heq | heq <;>
        · rw [heq]
          assumption

/-- A grid has a point in the interval if its step is less than the upper half of it. -/
theorem onGrid?_ne_none (hunit : 0 < i.unit) {p : Int} (hlow : i.low ≤ i.middle)
    (hstep : (i.middle / i.unit : ℚ) + (10 : ℚ) ^ p < i.upper) : i.onGrid? tie p ≠ none := by
  have hpos : 0 < i.unit * Nat.pow 10 p.toNat := Nat.mul_pos hunit (Nat.pow_pos (by decide))
  let below := i.middle * Nat.pow 10 (-p).toNat / (i.unit * Nat.pow 10 p.toNat)
  have hbelow : (below : ℚ) * (10 : ℚ) ^ p ≤ i.middle / i.unit :=
    (grid_le_div_iff hunit i.middle below p).2 (Nat.div_mul_le_self ..)
  have habove : (i.middle / i.unit : ℚ) < (below + 1 : Nat) * (10 : ℚ) ^ p := by
    rw [← not_le, grid_le_div_iff hunit, not_le, Nat.add_one_mul]
    exact Nat.lt_div_mul_add hpos
  have hlower : i.lower ≤ i.middle / i.unit :=
    div_le_div_of_nonneg_right (by exact_mod_cast hlow) (Nat.cast_nonneg _)
  -- The first point above the middle is less than one step away from it.
  have hupper : (below + 1 : Nat) * (10 : ℚ) ^ p < i.upper := by
    rw [Nat.cast_add_one, add_one_mul]
    linarith
  have hholds : i.Holds ((below + 1 : Nat) * (10 : ℚ) ^ p) := by
    unfold Holds
    split
    · exact ⟨(hlower.trans_lt habove).le, hupper.le⟩
    · exact ⟨hlower.trans_lt habove, hupper⟩
  rw [holds_grid_iff hunit] at hholds
  unfold onGrid?
  dsimp only at hholds ⊢
  split
  · rename_i hnone
    rw [hholds] at hnone
    cases hnone
  · exact Option.some_ne_none _
  · exact Option.some_ne_none _
  · split
    · exact Option.some_ne_none _
    split
    · exact Option.some_ne_none _
    · cases tie <;> exact Option.some_ne_none _

/-- A search that comes to a grid with a point in the interval ends in the interval. -/
theorem holds_search (hunit : 0 < i.unit) {fuel : Nat} {p : Int}
    (h : ∃ n < fuel, i.onGrid? tie (p - n) ≠ none) : i.Holds (i.search tie fuel p).value := by
  induction fuel generalizing p with
  | zero =>
      obtain ⟨n, hn, -⟩ := h
      exact absurd hn (Nat.not_lt_zero n)
  | succ fuel ih =>
      rw [search]
      cases hgrid : i.onGrid? tie p with
      | some k => exact holds_of_onGrid? hunit hgrid
      | none =>
          obtain ⟨n, hn, hpoint⟩ := h
          apply ih
          cases n with
          | zero =>
              rw [Nat.cast_zero, sub_zero] at hpoint
              exact absurd hgrid hpoint
          | succ n =>
              refine ⟨n, Nat.lt_of_succ_lt_succ hn, ?_⟩
              have hshift : p - 1 - (n : Int) = p - (n + 1 : Nat) := by omega
              rwa [hshift]

end Interval

/-! ## Shortest decimals -/

/-- Powers of ten against powers of two: `10 ^ 3 ≤ 2 ^ 10` and `2 ^ 13 ≤ 10 ^ 4`. -/
theorem ten_zpow_le_two_zpow {q r : Int} (h : 0 ≤ q ∧ 10 * q ≤ 3 * r ∨ q < 0 ∧ 13 * q ≤ 4 * r) :
    (10 : ℚ) ^ q ≤ (2 : ℚ) ^ r := by
  rcases h with ⟨hq, hqr⟩ | ⟨hq, hqr⟩
  · rw [← pow_le_pow_iff_left₀ (by positivity) (by positivity) (show 3 ≠ 0 by decide)]
    calc ((10 : ℚ) ^ q) ^ 3 = (1000 : ℚ) ^ q := by
          rw [← zpow_natCast, ← zpow_mul, mul_comm, zpow_mul]
          norm_num
      _ ≤ (1024 : ℚ) ^ q := zpow_le_zpow_left₀ hq (by norm_num) (by norm_num)
      _ = (2 : ℚ) ^ (10 * q) := by
          rw [zpow_mul]
          norm_num
      _ ≤ (2 : ℚ) ^ (3 * r) := zpow_le_zpow_right₀ (by norm_num) hqr
      _ = ((2 : ℚ) ^ r) ^ 3 := by
          rw [← zpow_natCast, ← zpow_mul, mul_comm]
          norm_num
  · rw [← pow_le_pow_iff_left₀ (by positivity) (by positivity) (show 4 ≠ 0 by decide)]
    calc ((10 : ℚ) ^ q) ^ 4 = (10000 : ℚ)⁻¹ ^ (-q) := by
          rw [← zpow_natCast, ← zpow_mul, mul_comm, zpow_mul, inv_zpow', neg_neg]
          norm_num
      _ ≤ (8192 : ℚ)⁻¹ ^ (-q) :=
          zpow_le_zpow_left₀ (by omega) (by norm_num) (inv_anti₀ (by norm_num) (by norm_num))
      _ = (2 : ℚ) ^ (13 * q) := by
          rw [zpow_mul, inv_zpow', neg_neg]
          norm_num
      _ ≤ (2 : ℚ) ^ (4 * r) := zpow_le_zpow_right₀ (by norm_num) hqr
      _ = ((2 : ℚ) ^ r) ^ 4 := by
          rw [← zpow_natCast, ← zpow_mul, mul_comm]
          norm_num

namespace Interval

variable (mantissa : Nat) (exponent : Int)

theorem unit_around_pos : 0 < (around mantissa exponent).unit :=
  Nat.pow_pos (by decide)

/-- An interval around a word is a scale over its unit: a power of two. -/
theorem around_div (a : Nat) :
    ((a * Nat.pow 2 (exponent - 2).toNat : Nat) : ℚ) / (around mantissa exponent).unit =
      a * (2 : ℚ) ^ (exponent - 2) := by
  show ((a * 2 ^ (exponent - 2).toNat : Nat) : ℚ) / ((2 ^ (2 - exponent).toNat : Nat) : ℚ) = _
  rw [zpow_eq_div (by norm_num), neg_sub, ← mul_div_assoc]
  push_cast
  rfl

theorem lower_around : (around mantissa exponent).lower =
    (4 * mantissa - if mantissa = 2 ^ 52 ∧ -1074 < exponent then 1 else 2 : Nat) *
      (2 : ℚ) ^ (exponent - 2) :=
  around_div ..

theorem middle_around :
    ((around mantissa exponent).middle : ℚ) / (around mantissa exponent).unit =
      (4 * mantissa : Nat) * (2 : ℚ) ^ (exponent - 2) :=
  around_div ..

theorem upper_around : (around mantissa exponent).upper =
    (4 * mantissa + 2 : Nat) * (2 : ℚ) ^ (exponent - 2) :=
  around_div ..

end Interval

/-- The shortest decimal of a mantissa of at most 53 bits lies in the interval around it: the grid
that is searched last has a step of less than half the width of the interval. -/
theorem holds_shortest (tie : Tie) {mantissa : Nat} {exponent : Int} (hmantissa : 0 < mantissa)
    (hbits : mantissa < 2 ^ 53) (hlow : -1074 ≤ exponent) (hhigh : exponent ≤ 971) :
    (Interval.around mantissa exponent).Holds (shortest tie mantissa exponent).value := by
  have hlog : mantissa.log2 ≤ 52 := Nat.lt_succ_iff.1 ((Nat.log2_lt hmantissa.ne').2 hbits)
  unfold shortest
  dsimp only
  generalize hstart : (if (0 : Int) ≤ mantissa.log2 + exponent + 1
    then (mantissa.log2 + exponent + 1) * 31 / 100
    else (mantissa.log2 + exponent + 1) * 30 / 100) + 1 = start
  have hstep : (10 : ℚ) ^ (start - 39) ≤ (2 : ℚ) ^ (exponent - 2) := by
    apply ten_zpow_le_two_zpow
    split at hstart <;> omega
  apply Interval.holds_search (Interval.unit_around_pos ..)
  refine ⟨39, by decide, Interval.onGrid?_ne_none (Interval.unit_around_pos ..) ?_ ?_⟩
  · exact Nat.mul_le_mul_right _ (Nat.sub_le ..)
  · have hpos : (0 : ℚ) < (2 : ℚ) ^ (exponent - 2) := by positivity
    rw [Interval.middle_around, Interval.upper_around]
    simp only [Nat.cast_add, Nat.cast_ofNat]
    linarith

/-! ## Words -/

/-- The mantissa of the words of a magnitude. -/
def significand (magnitude : Nat) : Nat :=
  if magnitude < 2 ^ 52 then magnitude else magnitude % 2 ^ 52 + 2 ^ 52

/-- The exponent of the words of a magnitude. -/
def scale (magnitude : Nat) : Int :=
  if magnitude < 2 ^ 52 then -1074 else magnitude / 2 ^ 52 - 1075

theorem reading_of_isFinite {x : Binary64} (h : x.isFinite = true) :
    x.reading = .finite x.negative (significand x.magnitude) (scale x.magnitude) := by
  have hlt : x.magnitude < infiniteMagnitude := of_decide_eq_true h
  rw [reading, if_neg (Nat.not_lt.2 hlt.le), if_neg hlt.ne]
  show (if x.magnitude < 2 ^ 52 then _ else _) = _
  unfold significand scale
  split <;> rfl

/-- The interval of the words of a magnitude. -/
def span (magnitude : Nat) : Interval := .around (significand magnitude) (scale magnitude)

/-- The mantissa grows by one from each magnitude to the next, and starts again at half of what it
has come to when the exponent grows. -/
theorem significand_succ (n : Nat) :
    (scale (n + 1) = scale n ∧ significand (n + 1) = significand n + 1 ∧
      ¬ (significand (n + 1) = 2 ^ 52 ∧ -1074 < scale (n + 1))) ∨
    (scale (n + 1) = scale n + 1 ∧ significand n + 1 = 2 ^ 53 ∧ significand (n + 1) = 2 ^ 52 ∧
      -1074 < scale (n + 1)) := by
  unfold significand scale
  split_ifs <;> omega

/-- Where the interval of a magnitude ends, that of the next one starts. -/
theorem upper_span (n : Nat) : (span n).upper = (span (n + 1)).lower := by
  rw [span, span, Interval.upper_around, Interval.lower_around]
  rcases significand_succ n with ⟨hscale, hmantissa, hwide⟩ | ⟨hscale, hmantissa, hhalf, hlow⟩
  · rw [if_neg hwide, hscale, hmantissa]
    rfl
  · have hlast : significand n = 2 ^ 53 - 1 := by omega
    have hshift : scale n + 1 - 2 = scale n - 2 + 1 := by omega
    rw [if_pos ⟨hhalf, hlow⟩, hhalf, hscale, hlast, hshift, zpow_add_one₀ (by norm_num)]
    push_cast
    linarith

theorem lower_lt_upper_span (n : Nat) : (span n).lower < (span n).upper := by
  have hpos : (0 : ℚ) < (2 : ℚ) ^ (scale n - 2) := by positivity
  rw [span, Interval.upper_around, Interval.lower_around]
  apply mul_lt_mul_of_pos_right _ hpos
  exact_mod_cast by omega

theorem strictMono_lower_span : StrictMono fun n => (span n).lower := by
  apply strictMono_nat_of_lt_succ
  intro n
  rw [← upper_span]
  exact lower_lt_upper_span n

theorem closed_span (n : Nat) : (span n).closed = decide (n % 2 = 0) := by
  show decide (significand n % 2 = 0) = _
  unfold significand
  split
  · rfl
  · congr 1
    rw [eq_iff_iff]
    omega

/-- The intervals of two magnitudes have no number in common: those of neighbours meet in an end, of
which only the one with the even mantissa holds it. -/
theorem not_holds_of_lt {m n : Nat} (h : m < n) {v : ℚ} (hm : (span m).Holds v) :
    ¬ (span n).Holds v := by
  intro hn
  have hupper := hm.le.2
  have hlower := hn.le.1
  rw [upper_span] at hupper
  have heq : (span (m + 1)).lower = (span n).lower :=
    le_antisymm (strictMono_lower_span.monotone h) (hlower.trans hupper)
  obtain rfl : m + 1 = n := strictMono_lower_span.injective heq
  have hend : v = (span (m + 1)).lower := le_antisymm hupper hlower
  have hclosed := hm.closed_of_end (.inr (hend.trans (upper_span m).symm))
  have hclosed' := hn.closed_of_end (.inl hend)
  rw [closed_span, decide_eq_true_eq] at hclosed hclosed'
  omega

/-- A number lies in the interval of one magnitude only. -/
theorem eq_of_holds {m n : Nat} {v : ℚ} (hm : (span m).Holds v) (hn : (span n).Holds v) :
    m = n := by
  rcases Nat.lt_trichotomy m n with hlt | heq | hlt
  · exact absurd hn (not_holds_of_lt hlt hm)
  · exact heq
  · exact absurd hm (not_holds_of_lt hlt hn)

/-- The decimal that the words of a magnitude are written as. -/
def decimal (tie : Tie) (magnitude : Nat) : Decimal :=
  match significand magnitude with
  | 0 => ⟨0, 0⟩
  | mantissa + 1 => shortest tie (mantissa + 1) (scale magnitude)

theorem holds_decimal (tie : Tie) {n : Nat} (h : n < infiniteMagnitude) :
    (span n).Holds (decimal tie n).value := by
  have hfinite : n < 2047 * 2 ^ 52 := h
  have hrange : significand n < 2 ^ 53 ∧ -1074 ≤ scale n ∧ scale n ≤ 971 := by
    unfold significand scale
    split_ifs <;> omega
  obtain ⟨hbits, hlow, hhigh⟩ := hrange
  unfold span decimal
  cases hmantissa : significand n with
  | zero =>
      have hclosed : (Interval.around 0 (scale n)).closed = true := rfl
      have hpos : (0 : ℚ) ≤ (2 : ℚ) ^ (scale n - 2) := by positivity
      rw [Interval.Holds, if_pos hclosed, Interval.lower_around, Interval.upper_around]
      dsimp only [Decimal.value]
      split <;> constructor <;> norm_num [hpos]
  | succ mantissa =>
      rw [hmantissa] at hbits
      exact holds_shortest tie (Nat.succ_pos _) hbits hlow hhigh

/-- Words of two magnitudes are written as decimals of two values. -/
theorem magnitude_eq_of_value_eq {tie : Tie} {x y : Binary64} (hx : x.isFinite = true)
    (hy : y.isFinite = true)
    (h : (decimal tie x.magnitude).value = (decimal tie y.magnitude).value) :
    x.magnitude = y.magnitude := by
  have hholds := holds_decimal tie (of_decide_eq_true hx)
  rw [h] at hholds
  exact eq_of_holds hholds (holds_decimal tie (of_decide_eq_true hy))

theorem eq_of_magnitude_eq {x y : Binary64} (hsign : x.negative = y.negative)
    (hmagnitude : x.magnitude = y.magnitude) : x = y := by
  obtain ⟨x⟩ := x
  obtain ⟨y⟩ := y
  have hx := x.toNat_lt
  have hy := y.toNat_lt
  have hhalf : Nat.pow 2 63 = 0x8000000000000000 := by decide
  have hsign' := Bool.eq_iff_iff.1 hsign
  simp only [negative, magnitude, hhalf, beq_iff_eq] at hsign' hmagnitude
  congr 1
  apply UInt64.toNat.inj
  omega

end BehaviorTree.Binary64
