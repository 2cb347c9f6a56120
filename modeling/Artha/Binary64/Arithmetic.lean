import Artha.Binary64.Basic

/-!
# Arithmetic on binary64 numbers

`add`, `sub` and `div` round the exact result once.  `floor` and `round` are exact: the integer next
to a number is again one of the numbers.  A quotient by zero takes its sign from the dividend, since
the zeros are one value here.  What overflows is said by `ofRat_finite_iff`: the results from half a
unit above the largest finite number on.
-/

namespace Artha.Binary64

namespace Number

def neg : Number → Number
  | .nan => .nan
  | .infinity negative => .infinity (!negative)
  | .finite v => .finite (-v)

/-- `x + y`. -/
def add : Number → Number → Number
  | .nan, _ => .nan
  | _, .nan => .nan
  | .infinity negative, .infinity negative' =>
    if negative = negative' then .infinity negative else .nan
  | .infinity negative, .finite _ => .infinity negative
  | .finite _, .infinity negative => .infinity negative
  | .finite v, .finite w => ofRat (v + w)

/-- `x - y`. -/
def sub (x y : Number) : Number := add x (neg y)

/-- `x / y`. -/
def div : Number → Number → Number
  | .nan, _ => .nan
  | _, .nan => .nan
  | .infinity _, .infinity _ => .nan
  | .infinity negative, .finite w => .infinity (negative ^^ (w < 0))
  | .finite _, .infinity _ => .finite 0
  | .finite v, .finite w =>
    if w = 0 then if v = 0 then .nan else .infinity (v < 0) else ofRat (v / w)

/-- `Math.abs(x)`. -/
def abs : Number → Number
  | .nan => .nan
  | .infinity _ => .infinity false
  | .finite v => .finite |v|

/-- `Math.floor(x)`. -/
def floor : Number → Number
  | .finite v => .finite ⌊v⌋
  | x => x

/-- `Math.round(x)`: ties go up. -/
def round : Number → Number
  | .finite v => .finite ⌊v + 1 / 2⌋
  | x => x

/-- `Math.max(x, y)`. -/
def max (x y : Number) : Number :=
  if x = .nan ∨ y = .nan then .nan else if lt x y then y else x

/-- `x === y`. -/
def strictEq (x y : Number) : Bool := x ≠ .nan && x = y

end Number

/-! ### Finite results -/

theorem representable_zero : Representable 0 := by
  exact_mod_cast representable_intCast (show |(0 : ℤ)| < 2 ^ 53 by norm_num)

namespace Number

theorem sub_finite (v w : ℚ) : sub (.finite v) (.finite w) = ofRat (v - w) := by
  rw [sub_eq_add_neg]
  rfl

theorem zero_add_finite {v : ℚ} (hv : Representable v) :
    add (.finite 0) (.finite v) = .finite v := by
  rw [add, zero_add, ofRat_of_representable hv]

theorem add_eq_finite {x y : Number} {u : ℚ} (h : add x y = .finite u) :
    ∃ v w, x = .finite v ∧ y = .finite w ∧ ofRat (v + w) = .finite u := by
  cases x with
  | nan => simp [add] at h
  | infinity negative =>
    cases y with
    | nan => simp [add] at h
    | infinity negative' =>
      rw [add] at h
      split_ifs at h
    | finite w => simp [add] at h
  | finite v =>
    cases y with
    | nan => simp [add] at h
    | infinity negative => simp [add] at h
    | finite w => exact ⟨v, w, rfl, rfl, h⟩

theorem mul_eq_finite {x y : Number} {u : ℚ} (h : mul x y = .finite u) :
    ∃ v w, x = .finite v ∧ y = .finite w := by
  cases x with
  | nan => simp [mul] at h
  | infinity negative =>
    cases y with
    | nan => simp [mul] at h
    | infinity negative' => simp [mul] at h
    | finite w =>
      rw [mul] at h
      split_ifs at h
  | finite v =>
    cases y with
    | nan => simp [mul] at h
    | infinity negative =>
      rw [mul] at h
      split_ifs at h
    | finite w => exact ⟨v, w, rfl, rfl⟩

theorem sub_eq_finite {x y : Number} {u : ℚ} (h : sub x y = .finite u) :
    ∃ v w, x = .finite v ∧ y = .finite w := by
  obtain ⟨v, w, hx, hy, -⟩ := add_eq_finite h
  cases y with
  | nan => simp [neg] at hy
  | infinity negative => simp [neg] at hy
  | finite w' => exact ⟨v, w', hx, rfl⟩

theorem round_eq_finite {x : Number} {u : ℚ} (h : round x = .finite u) :
    ∃ v, x = .finite v ∧ u = ⌊v + 1 / 2⌋ := by
  cases x with
  | nan => simp [round] at h
  | infinity negative => simp [round] at h
  | finite v => exact ⟨v, rfl, (Number.finite.inj h).symm⟩

theorem strictEq_finite_iff {x : Number} {v : ℚ} : strictEq x (.finite v) ↔ x = .finite v := by
  rw [strictEq, Bool.and_eq_true, decide_eq_true_iff, decide_eq_true_iff]
  constructor
  · exact And.right
  · rintro rfl
    exact ⟨by simp, rfl⟩

end Number

/-! ### Signs -/

theorem nearestEven_nonpos {q : ℚ} (hq : q ≤ 0) : nearestEven q ≤ 0 := by
  have hfloor : (⌊q⌋ : ℚ) ≤ q := Int.floor_le q
  by_cases hzero : q = 0
  · rw [hzero]
    exact (nearestEven_intCast 0).le
  · have hneg : ⌊q⌋ < 0 := by
      have hlt : (⌊q⌋ : ℚ) < ((0 : ℤ) : ℚ) := by
        push_cast
        exact lt_of_le_of_lt hfloor (lt_of_le_of_ne hq hzero)
      exact Int.cast_lt.mp hlt
    unfold nearestEven
    split_ifs <;> omega

theorem rounded_nonpos {v : ℚ} (hv : v ≤ 0) : rounded v ≤ 0 := by
  have hquotient : v / 2 ^ exponent v ≤ 0 := div_nonpos_of_nonpos_of_nonneg hv (two_zpow_pos _).le
  have hnearest : ((nearestEven (v / 2 ^ exponent v) : ℤ) : ℚ) ≤ 0 := by
    exact_mod_cast nearestEven_nonpos hquotient
  exact mul_nonpos_of_nonpos_of_nonneg hnearest (two_zpow_pos _).le

theorem nearestEven_nonneg {q : ℚ} (hq : 0 ≤ q) : 0 ≤ nearestEven q := by
  have hfloor : 0 ≤ ⌊q⌋ := Int.floor_nonneg.mpr hq
  unfold nearestEven
  split_ifs <;> omega

theorem rounded_nonneg {v : ℚ} (hv : 0 ≤ v) : 0 ≤ rounded v := by
  have hnearest : (0 : ℚ) ≤ nearestEven (v / 2 ^ exponent v) := by
    exact_mod_cast nearestEven_nonneg (div_nonneg hv (two_zpow_pos _).le)
  exact mul_nonneg hnearest (two_zpow_pos _).le

namespace Number

/-- A number that is not above zero. -/
def Nonpos : Number → Prop
  | .nan => False
  | .infinity negative => negative = true
  | .finite v => v ≤ 0

theorem nonpos_ofRat {v : ℚ} (hv : v ≤ 0) : Nonpos (ofRat v) := by
  unfold ofRat
  split_ifs with hlarge
  · have hne : v ≠ 0 := by
      rintro rfl
      rw [rounded_zero, abs_zero] at hlarge
      exact absurd hlarge (not_le.mpr (two_zpow_pos _))
    exact decide_eq_true (lt_of_le_of_ne hv hne)
  · exact rounded_nonpos hv

/-- A number that is too large has the sign that it is rounded to. -/
theorem ofRat_lt_zero_iff (v : ℚ) : lt (ofRat v) (.finite 0) = true ↔ rounded v < 0 := by
  rw [ofRat]
  split_ifs with hlarge
  · have hne : rounded v ≠ 0 := by
      intro hzero
      rw [hzero, abs_zero] at hlarge
      exact absurd hlarge (not_le.mpr (two_zpow_pos _))
    simp only [lt, decide_eq_true_eq]
    constructor
    · exact fun hv => lt_of_le_of_ne (rounded_nonpos hv.le) hne
    · intro hrounded
      by_contra hv
      exact absurd hrounded (not_lt.mpr (rounded_nonneg (not_lt.mp hv)))
  · simp [lt]

theorem lt_one_of_nonpos {x : Number} (h : Nonpos x) : lt x (.finite 1) = true := by
  cases x with
  | nan => exact absurd h id
  | infinity negative => exact h
  | finite v =>
    have hv : v ≤ 0 := h
    have hlt : v < 1 := by linarith
    simpa [lt] using hlt

/-- A positive integer is not rounded below one. -/
theorem not_lt_one_ofRat {n : ℕ} (hn : 0 < n) : lt (ofRat n) (.finite 1) = false := by
  rw [ofRat]
  split_ifs with hlarge
  · have hnonneg : ¬(n : ℚ) < 0 := not_lt.mpr (Nat.cast_nonneg n)
    simp [lt, hnonneg]
  · have hone : (1 : ℚ) ≤ n := by exact_mod_cast hn
    have hrounded : (1 : ℚ) ≤ rounded n := by
      rcases lt_or_ge n 2 with hsmall | htwo
      · obtain rfl : n = 1 := by omega
        have hexact : Representable ((1 : ℤ) : ℚ) := representable_intCast (by decide)
        have hrounded := hexact.rounded_eq
        push_cast at hrounded ⊢
        rw [hrounded]
      · have htwo : (2 : ℚ) ≤ n := by exact_mod_cast htwo
        have habs : |(n : ℚ)| = n := abs_of_nonneg (by linarith)
        -- from two on even half of the number is at least one
        have hclose := abs_rounded_sub_le (v := (n : ℚ)) (by rw [habs]; exact hone)
        rw [habs] at hclose
        have hlow := (abs_le.mp hclose).1
        linarith
    simpa [lt] using hrounded

/-- What is subtracted from a number that is not above it leaves nothing positive. -/
theorem nonpos_sub {x : Number} {w : ℚ} (h : le x (.finite w)) : Nonpos (sub x (.finite w)) := by
  cases x with
  | nan => simp [le] at h
  | infinity negative =>
    cases negative with
    | true => exact rfl
    | false => simp [le, lt] at h
  | finite v =>
    have hle : v ≤ w := by simpa [le, lt] using h
    exact nonpos_ofRat (by linarith)

theorem nonpos_div {x : Number} {w : ℚ} (hx : Nonpos x) (hw : 0 < w) :
    Nonpos (div x (.finite w)) := by
  cases x with
  | nan => exact hx
  | infinity negative =>
    have hnot : ¬w < 0 := not_lt.mpr hw.le
    rw [show negative = true from hx]
    simp [div, Nonpos, hnot]
  | finite v =>
    rw [div, if_neg hw.ne']
    exact nonpos_ofRat (div_nonpos_of_nonpos_of_nonneg hx hw.le)

theorem max_zero_of_nonpos {x : Number} (hx : Nonpos x) : max x (.finite 0) = .finite 0 := by
  cases x with
  | nan => exact absurd hx id
  | infinity negative =>
    rw [show negative = true from hx]
    simp [max, lt]
  | finite v =>
    have hle : v ≤ 0 := hx
    rcases lt_or_eq_of_le hle with hlt | heq
    · simp [max, lt, hlt]
    · simp [max, lt, heq]

/-- What `Math.max(x, 0)` can be. -/
theorem max_zero_cases (x : Number) :
    max x (.finite 0) = .nan ∨ max x (.finite 0) = .infinity false ∨
      ∃ v, 0 ≤ v ∧ max x (.finite 0) = .finite v := by
  cases x with
  | nan => exact .inl rfl
  | infinity negative =>
    cases negative with
    | true => exact .inr (.inr ⟨0, le_refl 0, by simp [max, lt]⟩)
    | false => exact .inr (.inl (by simp [max, lt]))
  | finite v =>
    refine .inr (.inr ?_)
    by_cases hv : v < 0
    · exact ⟨0, le_refl 0, by simp [max, lt, hv]⟩
    · exact ⟨v, not_lt.mp hv, by simp [max, lt, hv]⟩

/-- A part of an infinite number, taken from it, leaves no number. -/
theorem sub_mul_infinity (x : Number) (negative : Bool) :
    sub (.infinity negative) (mul (max x (.finite 0)) (.infinity negative)) = .nan := by
  rcases max_zero_cases x with h | h | ⟨v, hv, h⟩
  · rw [h]
    rfl
  · rw [h]
    simp [mul, sub, neg, add]
  · rw [h, mul]
    split_ifs with hzero
    · rfl
    · have hnot : ¬v < 0 := not_lt.mpr hv
      simp [sub, neg, add, hnot]

end Number

/-! ### The sign of a difference -/

/-- A finite number is a multiple of the smallest one. -/
theorem Representable.exists_multiple {v : ℚ} (h : Representable v) :
    ∃ k : ℤ, v = k * 2 ^ (-1074 : ℤ) := by
  obtain ⟨m, e, -, hlow, -, rfl⟩ := h
  obtain ⟨n, hn⟩ := Int.eq_ofNat_of_zero_le (show 0 ≤ e + 1074 by omega)
  refine ⟨m * 2 ^ n, ?_⟩
  rw [Int.cast_mul, mul_assoc, intCast_two_pow_mul, show (-1074 : ℤ) + (n : ℕ) = e by omega]

theorem nearestEven_pos {q : ℚ} (hq : 1 ≤ q) : 0 < nearestEven q := by
  have hfloor : 1 ≤ ⌊q⌋ := Int.le_floor.mpr (by exact_mod_cast hq)
  unfold nearestEven
  split_ifs <;> omega

/-- From the smallest number on nothing is rounded to zero. -/
theorem rounded_pos {v : ℚ} (hv : 2 ^ (-1074 : ℤ) ≤ v) : 0 < rounded v := by
  have hpos : 0 < v := lt_of_lt_of_le (two_zpow_pos _) hv
  have hquotient : 1 ≤ v / 2 ^ exponent v := by
    rcases (le_max_right (Int.log 2 |v| - 52) (-1074)).lt_or_eq with hnormal | hsubnormal
    · have hlead := le_abs_div_unit hpos.ne' hnormal
      rw [abs_of_pos (div_pos hpos (two_zpow_pos _))] at hlead
      exact le_trans (by norm_num) hlead
    · rw [le_div_iff₀ (two_zpow_pos _), one_mul, exponent, ← hsubnormal]
      exact hv
  have hnearest : (0 : ℚ) < nearestEven (v / 2 ^ exponent v) := by
    exact_mod_cast nearestEven_pos hquotient
  exact mul_pos hnearest (two_zpow_pos _)

namespace Number

theorem lt_zero_ofRat {v : ℚ} (hv : 2 ^ (-1074 : ℤ) ≤ v) : lt (.finite 0) (ofRat v) = true := by
  have hpos : 0 < v := lt_of_lt_of_le (two_zpow_pos _) hv
  unfold ofRat
  split_ifs
  · simp [lt, hpos.le]
  · simpa [lt] using rounded_pos hv

/-- A difference is positive exactly if the first number is the larger one. -/
theorem lt_zero_sub_iff {v w : ℚ} (hv : Representable v) (hw : Representable w) :
    lt (.finite 0) (sub (.finite v) (.finite w)) = true ↔ w < v := by
  rw [sub_finite]
  constructor
  · intro h
    by_contra hle
    have hnonpos := nonpos_ofRat (sub_nonpos.mpr (not_lt.mp hle))
    cases hx : ofRat (v - w) with
    | nan => simp [hx, lt] at h
    | infinity negative =>
      have hnegative : negative = true := by simpa [hx, Nonpos] using hnonpos
      simp [hx, lt, hnegative] at h
    | finite u =>
      have hu : u ≤ 0 := by simpa [hx, Nonpos] using hnonpos
      have hpos : 0 < u := by simpa [hx, lt] using h
      exact absurd hpos (not_lt.mpr hu)
  · intro hlt
    obtain ⟨k, rfl⟩ := hv.exists_multiple
    obtain ⟨l, rfl⟩ := hw.exists_multiple
    have hint : l < k := Int.cast_lt.mp ((mul_lt_mul_iff_left₀ (two_zpow_pos _)).mp hlt)
    refine lt_zero_ofRat ?_
    have hone : (1 : ℚ) ≤ k - l := by exact_mod_cast (show (1 : ℤ) ≤ k - l by omega)
    calc (2 : ℚ) ^ (-1074 : ℤ) = 1 * 2 ^ (-1074 : ℤ) := (one_mul _).symm
      _ ≤ (k - l) * 2 ^ (-1074 : ℤ) := mul_le_mul_of_nonneg_right hone (two_zpow_pos _).le
      _ = k * 2 ^ (-1074 : ℤ) - l * 2 ^ (-1074 : ℤ) := sub_mul _ _ _

end Number

/-! ### Overflow -/

/-- Half a unit above the largest finite number. -/
def overflow : ℚ := (2 ^ 53 - 1 / 2) * 2 ^ (971 : ℤ)

theorem two_pow_mul_unit (n : ℕ) : (2 : ℚ) ^ n * 2 ^ (971 : ℤ) = 2 ^ ((971 : ℤ) + n) := by
  rw [← intCast_two_pow_mul, Int.cast_pow, Int.cast_ofNat]

theorem two_zpow_1023_lt_overflow : (2 : ℚ) ^ (1023 : ℤ) < overflow := by
  have h := two_pow_mul_unit 52
  norm_num only at h
  rw [← h, overflow]
  exact mul_lt_mul_of_pos_right (by norm_num) (two_zpow_pos _)

theorem overflow_lt_two_zpow_1024 : overflow < 2 ^ (1024 : ℤ) := by
  have h := two_pow_mul_unit 53
  norm_num only at h
  rw [← h, overflow]
  exact mul_lt_mul_of_pos_right (by norm_num) (two_zpow_pos _)

theorem abs_nearestEven_lt {q : ℚ} (h : |q| < 2 ^ 53 - 1 / 2) : |nearestEven q| < 2 ^ 53 := by
  have hnear := abs_nearestEven_sub_le q
  have htriangle := abs_sub_abs_le_abs_sub (nearestEven q : ℚ) q
  have hlt : ((|nearestEven q| : ℤ) : ℚ) < ((2 ^ 53 : ℤ) : ℚ) := by
    push_cast
    linarith
  exact Int.cast_lt.mp hlt

/-- The tie below `2 ^ 53` goes to it. -/
theorem le_abs_nearestEven_of_tie_le {q : ℚ} (h : 2 ^ 53 - 1 / 2 ≤ |q|) :
    2 ^ 53 ≤ |nearestEven q| := by
  rcases lt_or_eq_of_le h with hlt | heq
  · have hnear := abs_nearestEven_sub_le q
    have htriangle := abs_sub_abs_le_abs_sub q (nearestEven q)
    rw [abs_sub_comm] at htriangle
    have hgt : ((2 ^ 53 - 1 : ℤ) : ℚ) < ((|nearestEven q| : ℤ) : ℚ) := by
      push_cast
      linarith
    have hgt := Int.cast_lt.mp hgt
    omega
  · rcases (abs_eq (by norm_num)).mp heq.symm with rfl | rfl <;> norm_num [nearestEven]

theorem abs_lt_two_zpow_of_abs_rounded_lt {v : ℚ} (h : |rounded v| < 2 ^ (1024 : ℤ)) :
    |v| < 2 ^ (1024 : ℤ) := by
  by_contra hnot
  have hlarge : (2 : ℚ) ^ (1024 : ℤ) ≤ |v| := not_lt.mp hnot
  have hlog := le_log_of_two_zpow_le hlarge
  have hexp : 972 ≤ exponent v := by
    unfold exponent
    omega
  have hv : v ≠ 0 := by
    rintro rfl
    rw [abs_zero] at hlarge
    exact absurd hlarge (not_le.mpr (two_zpow_pos _))
  have hlead := le_abs_nearestEven (le_abs_div_unit hv (by omega))
  have hmul := mul_le_mul_of_nonneg_right (Int.cast_le.mpr hlead) (two_zpow_pos (exponent v)).le
  have hge : (2 : ℚ) ^ (1024 : ℤ) ≤ 2 ^ (exponent v + (52 : ℕ)) :=
    zpow_le_zpow_right₀ (by norm_num) (by push_cast; omega)
  rw [abs_rounded] at h
  rw [intCast_two_pow_mul] at hmul
  exact absurd h (not_lt.mpr (hge.trans hmul))

/-- The numbers of the highest binade: their unit is `2 ^ 971`. -/
theorem exponent_eq_of_le {v : ℚ} (hlow : 2 ^ (1023 : ℤ) ≤ |v|) (hhigh : |v| < 2 ^ (1024 : ℤ)) :
    exponent v = 971 := by
  have hpos : 0 < |v| := lt_of_lt_of_le (two_zpow_pos _) hlow
  have hge := le_log_of_two_zpow_le hlow
  have hlt : Int.log 2 |v| < 1024 := (Int.lt_zpow_iff_log_lt (by norm_num) hpos).mp hhigh
  have hmax : exponent v = Int.log 2 |v| - 52 := max_eq_left (by omega)
  omega

theorem abs_rounded_lt_of_lt {v : ℚ} (h : |v| < 2 ^ (1023 : ℤ)) :
    |rounded v| < 2 ^ (1024 : ℤ) := by
  have hexp : exponent v ≤ 970 := by
    refine max_le ?_ (by norm_num)
    by_cases hv : v = 0
    · rw [hv]
      simp
    have hlt : Int.log 2 |v| < 1023 :=
      (Int.lt_zpow_iff_log_lt (by norm_num) (abs_pos.mpr hv)).mp h
    omega
  have hle := abs_nearestEven_le (abs_div_unit_le v)
  have hmul := mul_le_mul_of_nonneg_right (Int.cast_le.mpr hle) (two_zpow_pos (exponent v)).le
  rw [intCast_two_pow_mul] at hmul
  rw [abs_rounded]
  calc _ ≤ (2 : ℚ) ^ (exponent v + (53 : ℕ)) := hmul
    _ < 2 ^ (1024 : ℤ) := zpow_lt_zpow_right₀ (by norm_num) (by push_cast; omega)

theorem abs_rounded_lt_iff (v : ℚ) : |rounded v| < 2 ^ (1024 : ℤ) ↔ |v| < overflow := by
  rcases lt_or_ge |v| (2 ^ (1023 : ℤ)) with hsmall | hbig
  · exact iff_of_true (abs_rounded_lt_of_lt hsmall) (hsmall.trans two_zpow_1023_lt_overflow)
  have hone : ((2 ^ 53 : ℤ) : ℚ) * 2 ^ (971 : ℤ) = 2 ^ (1024 : ℤ) := by
    rw [intCast_two_pow_mul]
    norm_num
  have hpos : (0 : ℚ) < 2 ^ (971 : ℤ) := two_zpow_pos _
  constructor
  · intro h
    have hexp := exponent_eq_of_le hbig (abs_lt_two_zpow_of_abs_rounded_lt h)
    by_contra hnot
    have htie : 2 ^ 53 - 1 / 2 ≤ |v / 2 ^ (971 : ℤ)| := by
      rw [abs_div, abs_of_pos hpos, le_div_iff₀ hpos, ← overflow]
      exact not_lt.mp hnot
    have hle := le_abs_nearestEven_of_tie_le htie
    have hmul := mul_le_mul_of_nonneg_right (Int.cast_le.mpr hle) hpos.le
    rw [abs_rounded, hexp] at h
    rw [hone] at hmul
    exact absurd h (not_lt.mpr hmul)
  · intro h
    have hhigh : |v| < 2 ^ (1024 : ℤ) := h.trans overflow_lt_two_zpow_1024
    have hexp := exponent_eq_of_le hbig hhigh
    have htie : |v / 2 ^ (971 : ℤ)| < 2 ^ 53 - 1 / 2 := by
      rw [abs_div, abs_of_pos hpos, div_lt_iff₀ hpos, ← overflow]
      exact h
    have hlt := abs_nearestEven_lt htie
    have hmul := mul_lt_mul_of_pos_right (Int.cast_lt.mpr hlt) hpos
    rw [abs_rounded, hexp, ← hone]
    exact hmul

namespace Number

/-- What is rounded to a finite number, and to which. -/
theorem ofRat_finite_iff (v : ℚ) : (∃ w, ofRat v = .finite w) ↔ |v| < overflow := by
  rw [← abs_rounded_lt_iff, ofRat]
  split_ifs with hlarge
  · simpa using hlarge
  · simpa using hlarge

end Number

end Artha.Binary64
