import Mathlib.Algebra.Order.Round
import Mathlib.Data.Int.Log
import Mathlib.Data.Rat.Floor
import Mathlib.Tactic.Linarith

/-!
# Binary64 numbers and the rounding of rationals to them

The numbers are `NaN`, the two infinities and the finite values `m * 2 ^ e` with `|m| < 2 ^ 53` and
`-1074 ≤ e ≤ 971`; the two zeros are one value here.  `ofRat` rounds to nearest, ties to even: a
rational is rounded to a multiple of the unit in the last place of its binade, and what reaches
`2 ^ 1024` is infinite.  Representable values are kept (`ofRat_of_representable`), and what a number
rounds to is representable (`ofRat_eq_finite`).
-/

namespace Artha.Binary64

/-- `v` is a finite binary64 value. -/
def Representable (v : ℚ) : Prop :=
  ∃ m e : ℤ, |m| < 2 ^ 53 ∧ -1074 ≤ e ∧ e ≤ 971 ∧ v = m * 2 ^ e

theorem representable_intCast {n : ℤ} (hn : |n| < 2 ^ 53) : Representable n :=
  ⟨n, 0, hn, by norm_num, by norm_num, by simp⟩

/-- The exponent of the unit in the last place. -/
def exponent (v : ℚ) : ℤ := max (Int.log 2 |v| - 52) (-1074)

/-- The nearest integer, ties to even. -/
def nearestEven (q : ℚ) : ℤ :=
  if q - ⌊q⌋ < 1 / 2 then ⌊q⌋
  else if 1 / 2 < q - ⌊q⌋ then ⌊q⌋ + 1
  else if ⌊q⌋ % 2 = 0 then ⌊q⌋
  else ⌊q⌋ + 1

/-- The nearest multiple of the unit. -/
def rounded (v : ℚ) : ℚ := nearestEven (v / 2 ^ exponent v) * 2 ^ exponent v

inductive Number where
  | nan
  | infinity (negative : Bool)
  | finite (v : ℚ)
deriving DecidableEq

namespace Number

/-- Rounding to nearest, ties to even. -/
def ofRat (v : ℚ) : Number :=
  if 2 ^ (1024 : ℤ) ≤ |rounded v| then .infinity (v < 0) else .finite (rounded v)

/-- `x < y`; never of `NaN`. -/
def lt : Number → Number → Bool
  | .nan, _ => false
  | _, .nan => false
  | .infinity negative, .infinity negative' => negative && !negative'
  | .infinity negative, .finite _ => negative
  | .finite _, .infinity negative => !negative
  | .finite v, .finite w => v < w

/-- `x ≤ y`; never of `NaN`. -/
def le (x y : Number) : Bool := x ≠ .nan && y ≠ .nan && !lt y x

/-- `x * y`. -/
def mul : Number → Number → Number
  | .nan, _ => .nan
  | _, .nan => .nan
  | .infinity negative, .infinity negative' => .infinity (negative ^^ negative')
  | .infinity negative, .finite v => if v = 0 then .nan else .infinity (negative ^^ (v < 0))
  | .finite v, .infinity negative => if v = 0 then .nan else .infinity (negative ^^ (v < 0))
  | .finite v, .finite w => ofRat (v * w)

end Number

/-! ### The nearest integer -/

@[simp] theorem nearestEven_intCast (z : ℤ) : nearestEven z = z := by
  simp [nearestEven]

theorem abs_nearestEven_sub_le (q : ℚ) : |(nearestEven q : ℚ) - q| ≤ 1 / 2 := by
  have hlow : (⌊q⌋ : ℚ) ≤ q := Int.floor_le q
  have hhigh : q < ⌊q⌋ + 1 := Int.lt_floor_add_one q
  rw [abs_le]
  unfold nearestEven
  split_ifs with hbelow habove
  · constructor <;> linarith
  · push_cast
    constructor <;> linarith
  · constructor <;> linarith
  · push_cast
    constructor <;> linarith

/-- The nearest integer does not leave an interval with integer ends. -/
theorem abs_nearestEven_le {q : ℚ} {n : ℤ} (h : |q| ≤ n) : |nearestEven q| ≤ n := by
  have hnear := abs_le.mp (abs_nearestEven_sub_le q)
  obtain ⟨hlow, hhigh⟩ := abs_le.mp h
  rw [abs_le]
  constructor
  · have hlt : ((-n - 1 : ℤ) : ℚ) < nearestEven q := by
      push_cast
      linarith
    have hlt := Int.cast_lt.mp hlt
    omega
  · have hlt : (nearestEven q : ℚ) < ((n + 1 : ℤ) : ℚ) := by
      push_cast
      linarith
    have hlt := Int.cast_lt.mp hlt
    omega

theorem le_abs_nearestEven {q : ℚ} {n : ℤ} (h : n ≤ |q|) : n ≤ |nearestEven q| := by
  have hnear := abs_nearestEven_sub_le q
  have habs : |q| ≤ |(nearestEven q : ℚ)| + 1 / 2 := by
    have htriangle := abs_sub_abs_le_abs_sub q (nearestEven q)
    rw [abs_sub_comm] at htriangle
    linarith
  have hlt : (n : ℚ) < ((|nearestEven q| + 1 : ℤ) : ℚ) := by
    push_cast
    linarith
  have hlt := Int.cast_lt.mp hlt
  omega

/-! ### The unit in the last place -/

theorem two_zpow_pos (e : ℤ) : (0 : ℚ) < 2 ^ e := zpow_pos (by norm_num) e

theorem rounded_zero : rounded 0 = 0 := by
  have hzero : nearestEven 0 = 0 := by simpa using nearestEven_intCast 0
  rw [rounded, zero_div, hzero, Int.cast_zero, zero_mul]

theorem intCast_two_pow_mul (n : ℕ) (e : ℤ) : ((2 ^ n : ℤ) : ℚ) * 2 ^ e = 2 ^ (e + n) := by
  rw [zpow_add₀ (by norm_num), zpow_natCast, mul_comm, Int.cast_pow, Int.cast_ofNat]

theorem lt_two_zpow_log (v : ℚ) : |v| < 2 ^ (Int.log 2 |v| + 1) :=
  Int.lt_zpow_succ_log_self (by norm_num) |v|

theorem two_zpow_log_le {v : ℚ} (hv : v ≠ 0) : 2 ^ Int.log 2 |v| ≤ |v| :=
  Int.zpow_log_le_self (by norm_num) (abs_pos.mpr hv)

theorem le_log_of_two_zpow_le {v : ℚ} {e : ℤ} (h : 2 ^ e ≤ |v|) : e ≤ Int.log 2 |v| :=
  (Int.zpow_le_iff_le_log (by norm_num) (lt_of_lt_of_le (two_zpow_pos e) h)).mp h

theorem abs_div_unit_le (v : ℚ) : |v / 2 ^ exponent v| ≤ ((2 ^ 53 : ℤ) : ℚ) := by
  have hexp : Int.log 2 |v| + 1 ≤ exponent v + (53 : ℕ) := by
    have hmax : Int.log 2 |v| - 52 ≤ exponent v := le_max_left _ _
    push_cast
    omega
  rw [abs_div, abs_of_pos (two_zpow_pos _), div_le_iff₀ (two_zpow_pos _), intCast_two_pow_mul]
  calc |v| ≤ 2 ^ (Int.log 2 |v| + 1) := (lt_two_zpow_log v).le
    _ ≤ 2 ^ (exponent v + (53 : ℕ)) := zpow_le_zpow_right₀ (by norm_num) hexp

/-- Above the subnormal numbers the significand has its leading bit. -/
theorem le_abs_div_unit {v : ℚ} (hv : v ≠ 0) (h : -1074 < exponent v) :
    ((2 ^ 52 : ℤ) : ℚ) ≤ |v / 2 ^ exponent v| := by
  have hexp : exponent v + (52 : ℕ) = Int.log 2 |v| := by
    unfold exponent at h ⊢
    push_cast
    omega
  rw [abs_div, abs_of_pos (two_zpow_pos _), le_div_iff₀ (two_zpow_pos _), intCast_two_pow_mul, hexp]
  exact two_zpow_log_le hv

theorem abs_rounded (v : ℚ) :
    |rounded v| = |nearestEven (v / 2 ^ exponent v)| * 2 ^ exponent v := by
  rw [rounded, abs_mul, abs_of_pos (two_zpow_pos _), Int.cast_abs]

/-- From `1` on rounding moves a value by at most half of it. -/
theorem abs_rounded_sub_le {v : ℚ} (hv : 1 ≤ |v|) : |rounded v - v| ≤ |v| / 2 := by
  have hv0 : v ≠ 0 := by
    rintro rfl
    norm_num at hv
  have hlog : 0 ≤ Int.log 2 |v| := le_log_of_two_zpow_le (by rw [zpow_zero]; exact hv)
  have hexp : exponent v ≤ Int.log 2 |v| := by
    unfold exponent
    omega
  have hunit : (2 : ℚ) ^ exponent v ≤ |v| :=
    (zpow_le_zpow_right₀ (by norm_num) hexp).trans (two_zpow_log_le hv0)
  have hfactor : rounded v - v =
      (nearestEven (v / 2 ^ exponent v) - v / 2 ^ exponent v) * 2 ^ exponent v := by
    rw [sub_mul, div_mul_cancel₀ _ (two_zpow_pos _).ne', rounded]
  calc |rounded v - v|
      = |nearestEven (v / 2 ^ exponent v) - v / 2 ^ exponent v| * 2 ^ exponent v := by
        rw [hfactor, abs_mul, abs_of_pos (two_zpow_pos _)]
    _ ≤ 1 / 2 * |v| :=
        mul_le_mul (abs_nearestEven_sub_le _) hunit (two_zpow_pos _).le (by norm_num)
    _ = |v| / 2 := by ring

/-! ### Representable values -/

theorem abs_mul_two_zpow_lt {m : ℤ} (h : |m| < 2 ^ 53) (e : ℤ) :
    |m * (2 : ℚ) ^ e| < 2 ^ (e + (53 : ℕ)) := by
  have hm : ((|m| : ℤ) : ℚ) < ((2 ^ 53 : ℤ) : ℚ) := Int.cast_lt.mpr h
  rw [abs_mul, abs_of_pos (two_zpow_pos e), ← Int.cast_abs, ← intCast_two_pow_mul]
  exact mul_lt_mul_of_pos_right hm (two_zpow_pos e)

theorem Representable.abs_lt {v : ℚ} (h : Representable v) : |v| < 2 ^ (1024 : ℤ) := by
  obtain ⟨m, e, hm, -, he, rfl⟩ := h
  calc |m * (2 : ℚ) ^ e| < 2 ^ (e + (53 : ℕ)) := abs_mul_two_zpow_lt hm e
    _ ≤ 2 ^ (1024 : ℤ) := zpow_le_zpow_right₀ (by norm_num) (by push_cast; omega)

theorem Representable.rounded_eq {v : ℚ} (h : Representable v) : rounded v = v := by
  by_cases hv : v = 0
  · rw [hv, rounded_zero]
  obtain ⟨m, e, hm, hlow, -, hdef⟩ := h
  -- the unit of `v` divides `2 ^ e`
  have hexp : exponent v ≤ e := by
    have habs : |v| < 2 ^ (e + (53 : ℕ)) := by
      rw [hdef]
      exact abs_mul_two_zpow_lt hm e
    have hlog := (Int.lt_zpow_iff_log_lt (by norm_num) (abs_pos.mpr hv)).mp habs
    unfold exponent
    push_cast at hlog
    omega
  obtain ⟨n, hn⟩ := Int.eq_ofNat_of_zero_le (sub_nonneg.mpr hexp)
  have hquotient : v / 2 ^ exponent v = ((m * 2 ^ n : ℤ) : ℚ) := by
    have he : exponent v + (n : ℕ) = e := by omega
    rw [div_eq_iff (two_zpow_pos _).ne', Int.cast_mul, mul_assoc, intCast_two_pow_mul, he, hdef]
  rw [rounded, hquotient, nearestEven_intCast, ← hquotient, div_mul_cancel₀ _ (two_zpow_pos _).ne']

theorem representable_rounded {v : ℚ} (h : |rounded v| < 2 ^ (1024 : ℤ)) :
    Representable (rounded v) := by
  by_cases hv : v = 0
  · rw [hv, rounded_zero]
    exact_mod_cast representable_intCast (show |(0 : ℤ)| < 2 ^ 53 by norm_num)
  have hlow : -1074 ≤ exponent v := le_max_right _ _
  have hle := abs_nearestEven_le (abs_div_unit_le v)
  rw [abs_rounded] at h
  rcases lt_or_eq_of_le hle with hlt | heq
  · refine ⟨nearestEven (v / 2 ^ exponent v), exponent v, hlt, hlow, ?_, rfl⟩
    by_contra hexp
    have hlead := le_abs_nearestEven (le_abs_div_unit hv (by omega))
    have hge : (2 : ℚ) ^ (1024 : ℤ) ≤ 2 ^ (exponent v + (52 : ℕ)) :=
      zpow_le_zpow_right₀ (by norm_num) (by push_cast; omega)
    have hmul := mul_le_mul_of_nonneg_right (Int.cast_le.mpr hlead) (two_zpow_pos (exponent v)).le
    rw [intCast_two_pow_mul] at hmul
    exact absurd h (not_lt.mpr (hge.trans hmul))
  · -- the significand was rounded up to the next binade
    have hexp : exponent v + (53 : ℕ) < 1024 := by
      rw [heq, intCast_two_pow_mul] at h
      exact (zpow_lt_zpow_iff_right₀ (by norm_num)).mp h
    have hnext : ((2 ^ 53 : ℤ) : ℚ) * 2 ^ exponent v =
        ((2 ^ 52 : ℤ) : ℚ) * 2 ^ (exponent v + 1) := by
      rw [intCast_two_pow_mul, intCast_two_pow_mul, add_assoc]
      norm_num
    push_cast at hexp
    rcases (abs_eq (by norm_num)).mp heq with hpos | hneg
    · refine ⟨2 ^ 52, exponent v + 1, by norm_num, by omega, by omega, ?_⟩
      rw [rounded, hpos, hnext]
    · refine ⟨-2 ^ 52, exponent v + 1, by norm_num, by omega, by omega, ?_⟩
      rw [rounded, hneg, Int.cast_neg, Int.cast_neg, neg_mul, neg_mul, hnext]

namespace Number

/-- What rounds to a finite number, rounds to one that is there. -/
theorem ofRat_eq_finite {v w : ℚ} (h : ofRat v = .finite w) : w = rounded v ∧ Representable w := by
  unfold ofRat at h
  split_ifs at h with hlarge
  obtain rfl := Number.finite.inj h
  exact ⟨rfl, representable_rounded (not_le.mp hlarge)⟩

theorem ofRat_of_representable {v : ℚ} (h : Representable v) : ofRat v = .finite v := by
  rw [ofRat, h.rounded_eq, if_neg (not_le.mpr h.abs_lt)]

theorem ofRat_intCast {n : ℤ} (hn : |n| < 2 ^ 53) : ofRat n = .finite n :=
  ofRat_of_representable (representable_intCast hn)

end Number

end Artha.Binary64
