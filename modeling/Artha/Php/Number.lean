import Artha.Binary64.Basic
import Artha.Php.Value

/-!
# Numbers in PHP

`number?` is the number that a value denotes exactly: an integer, a finite double, or a numeric
string, whose digits are read as they stand.  `toInt` is the cast `(int)`.  It cuts off the fraction
of a double; a string without point and exponent is read as an integer, any other one as a double,
and both saturate.  `toInt_eq_iff` says when the cast of a number is that number.
-/

namespace Artha.Php

open Binary64

/-- `PHP_INT_MIN`. -/
def intMin : ℤ := -9223372036854775808

/-- `PHP_INT_MAX`. -/
def intMax : ℤ := 9223372036854775807

/-! ### Doubles -/

/-- The value of a finite double. -/
def floatValue (bits : UInt64) : Option ℚ :=
  let exponent := ((bits >>> 52) &&& 0x7FF).toNat
  let fraction := (bits &&& 0xFFFFFFFFFFFFF).toNat
  let sign : ℚ := if bits >>> 63 = 1 then -1 else 1
  if exponent = 0x7FF then none
  else if exponent = 0 then some (sign * (fraction * 2 ^ (-1074 : ℤ)))
  else some (sign * ((0x10000000000000 + fraction) * 2 ^ ((exponent : ℤ) - 1075)))

/-- The value without its fraction. -/
def truncate (v : ℚ) : ℤ := if 0 ≤ v then ⌊v⌋ else ⌈v⌉

/-- `(int)` of a finite double: out of range it wraps around. -/
def floatToInt (v : ℚ) : ℤ :=
  if intMin ≤ truncate v ∧ truncate v ≤ intMax then truncate v
  else (truncate v - intMin) % (2 * (intMax + 1)) + intMin

/-- The cast that saturates, as it is applied to the double of a string. -/
def saturate : Number → ℤ
  | .nan => 0
  | .infinity negative => if negative then intMin else intMax
  | .finite v =>
    if intMin ≤ v ∧ v < intMax + 1 then truncate v else if v < 0 then intMin else intMax

/-! ### Numeric strings -/

/-- What the digits of a string denote, and whether they are those of an integer. -/
inductive Numeric where
  | integer (n : ℤ)
  | decimal (v : ℚ)

def Numeric.value : Numeric → ℚ
  | .integer n => n
  | .decimal v => v

def isSpace (c : Char) : Bool :=
  c = ' ' || c = '\t' || c = '\n' || c = '\r' || c = '\x0b' || c = '\x0c'

/-- The number of decimal digits. -/
def ofDigits (digits : List Char) : ℕ := digits.foldl (fun n c => 10 * n + (c.toNat - 48)) 0

/-- An optional sign and what follows it; true is minus. -/
def sign : List Char → Bool × List Char
  | [] => (false, [])
  | c :: s => if c = '-' then (true, s) else if c = '+' then (false, s) else (false, c :: s)

/-- The digits after a point, if there is one. -/
def fractionPart : List Char → Option (List Char × List Char)
  | [] => none
  | c :: s => if c = '.' then some (s.takeWhile Char.isDigit, s.dropWhile Char.isDigit) else none

/-- An exponent with at least one digit, if there is one. -/
def exponentPart : List Char → Option (ℤ × List Char)
  | [] => none
  | c :: s =>
    let digits := (sign s).2.takeWhile Char.isDigit
    if (c = 'e' ∨ c = 'E') ∧ digits ≠ [] then
      some (if (sign s).1 then -(ofDigits digits) else ofDigits digits,
        (sign s).2.dropWhile Char.isDigit)
    else none

/-- The number a text begins with, without its sign, and what follows it. -/
def unsignedPrefix (s : List Char) : Option (Numeric × List Char) :=
  let whole := s.takeWhile Char.isDigit
  let rest := s.dropWhile Char.isDigit
  let fraction := ((fractionPart rest).map Prod.fst).getD []
  let tail := ((fractionPart rest).map Prod.snd).getD rest
  if whole = [] ∧ fraction = [] then none
  else if (fractionPart rest).isNone ∧ (exponentPart tail).isNone then
    some (.integer (ofDigits whole), rest)
  else
    let exponent := ((exponentPart tail).map Prod.fst).getD 0
    some (.decimal ((ofDigits (whole ++ fraction) : ℚ) * 10 ^ (exponent - fraction.length)),
      ((exponentPart tail).map Prod.snd).getD tail)

/-- The number a string begins with, after white space, and what follows it. -/
def numericPrefix (s : String) : Option (Numeric × List Char) :=
  let signed := sign (s.toList.dropWhile isSpace)
  (unsignedPrefix signed.2).map fun
    | (.integer n, rest) => (.integer (if signed.1 then -n else n), rest)
    | (.decimal v, rest) => (.decimal (if signed.1 then -v else v), rest)

/-- `is_numeric($s)`: nothing but white space follows the number. -/
def numeric? (s : String) : Option Numeric :=
  (numericPrefix s).bind fun n => if n.2.all isSpace then some n.1 else none

/-! ### The cast -/

namespace Value

/-- The number a numeric value denotes. -/
def number? : Value → Option ℚ
  | .int n => some n
  | .float bits => floatValue bits
  | .str s => (numeric? s).map Numeric.value
  | _ => none

/-- `(int)` of a string that begins with a number. -/
def numericToInt : Numeric → ℤ
  | .integer n => if n < intMin then intMin else if intMax < n then intMax else n
  | .decimal v => saturate (.ofRat v)

/-- `(int) $v`. -/
def toInt : Value → ℤ
  | .null => 0
  | .bool b => if b then 1 else 0
  | .int n => n
  | .float bits => ((floatValue bits).map floatToInt).getD 0
  | .str s => ((numericPrefix s).map fun n => numericToInt n.1).getD 0
  | .arr es => if es.isEmpty then 0 else 1

end Value

/-! ### When the cast is exact -/

theorem truncate_intCast (n : ℤ) : truncate n = n := by
  rw [truncate]
  split_ifs
  · exact Int.floor_intCast n
  · exact Int.ceil_intCast n

theorem floatToInt_mem (v : ℚ) : intMin ≤ floatToInt v ∧ floatToInt v ≤ intMax := by
  rw [floatToInt]
  split_ifs with h
  · exact h
  · have hmod := Int.emod_nonneg (truncate v - intMin) (show 2 * (intMax + 1) ≠ 0 by decide)
    have hlt := Int.emod_lt_of_pos (truncate v - intMin) (show 0 < 2 * (intMax + 1) by decide)
    have hmin : intMin = -9223372036854775808 := rfl
    have hmax : intMax = 9223372036854775807 := rfl
    omega

theorem floatToInt_eq_iff {v : ℚ} :
    (floatToInt v : ℚ) = v ↔ ∃ n : ℤ, v = n ∧ intMin ≤ n ∧ n ≤ intMax := by
  constructor
  · intro h
    obtain ⟨hlow, hhigh⟩ := floatToInt_mem v
    exact ⟨floatToInt v, h.symm, hlow, hhigh⟩
  · rintro ⟨n, rfl, hlow, hhigh⟩
    rw [floatToInt, truncate_intCast, if_pos ⟨hlow, hhigh⟩]

theorem truncate_mem {v : ℚ} (hlow : intMin ≤ v) (hhigh : v < intMax + 1) :
    intMin ≤ truncate v ∧ truncate v ≤ intMax := by
  have hlt : v < ((intMax + 1 : ℤ) : ℚ) := by
    push_cast
    exact hhigh
  rw [truncate]
  split_ifs with hv
  · have hfloor := Int.floor_lt.mpr hlt
    exact ⟨Int.le_floor.mpr hlow, by omega⟩
  · have hzero : v ≤ ((0 : ℤ) : ℚ) := by
      push_cast
      linarith
    have hceil := Int.ceil_le.mpr hzero
    have hmax : (0 : ℤ) ≤ intMax := by decide
    exact ⟨Int.cast_le.mp (hlow.trans (Int.le_ceil v)), by omega⟩

theorem saturate_mem (x : Number) : intMin ≤ saturate x ∧ saturate x ≤ intMax := by
  cases x with
  | nan => decide
  | infinity negative => cases negative <;> decide
  | finite v =>
    rw [saturate]
    split_ifs with h
    · exact truncate_mem h.1 h.2
    · decide
    · decide

/-- An integer rounds to an integer. -/
theorem exists_rounded_intCast (n : ℤ) : ∃ m : ℤ, rounded n = m := by
  by_cases hn : |n| < 2 ^ 53
  · exact ⟨n, (representable_intCast hn).rounded_eq⟩
  · have hpow : (2 : ℚ) ^ (53 : ℤ) ≤ |(n : ℚ)| := by
      rw [← Int.cast_abs]
      exact_mod_cast not_lt.mp hn
    have hlog := le_log_of_two_zpow_le hpow
    have hexponent : 0 ≤ exponent (n : ℚ) := by
      unfold exponent
      omega
    obtain ⟨k, hk⟩ := Int.eq_ofNat_of_zero_le hexponent
    refine ⟨nearestEven (n / 2 ^ exponent (n : ℚ)) * 2 ^ k, ?_⟩
    rw [rounded, hk]
    push_cast
    rfl

theorem representable_intMin : Representable intMin :=
  ⟨-1, 63, by norm_num, by norm_num, by norm_num, by norm_num [intMin]⟩

/-- The largest integer rounds up to a power of two, and saturates back. -/
theorem saturate_intMax : saturate (.ofRat intMax) = intMax := by
  have hcast : ((intMax : ℤ) : ℚ) = ((9223372036854775807 : ℕ) : ℚ) := by norm_num [intMax]
  have hlog : Int.log 2 |((intMax : ℤ) : ℚ)| = 62 := by
    rw [hcast, Nat.abs_cast, Int.log_natCast,
      Nat.log_eq_of_pow_le_of_lt_pow (m := 62) (by norm_num) (by norm_num)]
    rfl
  have hexponent : exponent intMax = 10 := by
    rw [exponent, hlog]
    rfl
  have hfloor : ⌊((intMax : ℤ) : ℚ) / 2 ^ (10 : ℤ)⌋ = 9007199254740991 := by
    rw [Int.floor_eq_iff]
    constructor <;> norm_num [intMax]
  have hnearest : nearestEven ((intMax : ℤ) / 2 ^ (10 : ℤ)) = 9007199254740992 := by
    rw [nearestEven, hfloor, if_neg (by norm_num [intMax]), if_pos (by norm_num [intMax])]
    rfl
  have hrounded : rounded intMax = 9223372036854775808 := by
    rw [rounded, hexponent, hnearest]
    norm_num
  have hnumber : Number.ofRat intMax = .finite 9223372036854775808 := by
    have hlt : |(9223372036854775808 : ℚ)| < 2 ^ (1024 : ℤ) := by
      have hpow : (9223372036854775808 : ℚ) = 2 ^ (63 : ℤ) := by norm_num
      rw [hpow, abs_of_pos (two_zpow_pos 63)]
      exact zpow_lt_zpow_right₀ (by norm_num) (by norm_num)
    rw [Number.ofRat, hrounded, if_neg (not_le.mpr hlt)]
  rw [hnumber, saturate, if_neg (by norm_num [intMax]), if_neg (by norm_num)]

theorem saturate_ofRat_eq_iff {v : ℚ} :
    (saturate (.ofRat v) : ℚ) = v ↔
      ∃ n : ℤ, v = n ∧ intMin ≤ n ∧ n ≤ intMax ∧ (Representable v ∨ n = intMax) := by
  constructor
  · intro h
    obtain ⟨hlow, hhigh⟩ := saturate_mem (.ofRat v)
    refine ⟨saturate (.ofRat v), h.symm, hlow, hhigh, ?_⟩
    cases hnumber : Number.ofRat v with
    | nan =>
      rw [hnumber] at h
      rw [← h]
      exact Or.inl (representable_intCast (show |(0 : ℤ)| < 2 ^ 53 by norm_num))
    | infinity negative =>
      rw [hnumber] at h
      cases negative with
      | true =>
        rw [← h]
        exact Or.inl representable_intMin
      | false => exact Or.inr rfl
    | finite w =>
      obtain ⟨hw, hrepresentable⟩ := Number.ofRat_eq_finite hnumber
      -- `v` is an integer, and so is what it rounds to
      obtain ⟨m, hm⟩ := exists_rounded_intCast (saturate (.ofRat v))
      rw [h, ← hw] at hm
      rw [hnumber] at h
      rw [saturate] at h ⊢
      split_ifs at h ⊢ with hrange hnegative
      · rw [hm, truncate_intCast, ← hm] at h
        rw [← h]
        exact Or.inl hrepresentable
      · rw [← h]
        exact Or.inl representable_intMin
      · exact Or.inr rfl
  · rintro ⟨n, rfl, hlow, hhigh, hrepresentable | rfl⟩
    · have hlow : (intMin : ℚ) ≤ n := Int.cast_le.mpr hlow
      have hhigh : (n : ℚ) < intMax + 1 := by
        have hlt : n < intMax + 1 := by omega
        exact_mod_cast hlt
      rw [Number.ofRat_of_representable hrepresentable, saturate, if_pos ⟨hlow, hhigh⟩,
        truncate_intCast]
    · rw [saturate_intMax]

namespace Value

/-- A value that denotes `v` is cast to `v`: it is an integer in the range of integers and, written
as a string with a point or an exponent, one that doubles have or the largest. -/
def CastsTo (value : Value) (v : ℚ) : Prop :=
  match value with
  | .int _ => True
  | .float _ => ∃ n : ℤ, v = n ∧ intMin ≤ n ∧ n ≤ intMax
  | .str s => ∃ n : ℤ, v = n ∧ intMin ≤ n ∧ n ≤ intMax ∧
      (numeric? s = some (.integer n) ∨ Representable v ∨ n = intMax)
  | _ => False

theorem numericToInt_eq_iff {s : String} {x : Numeric} (hx : numeric? s = some x) :
    (numericToInt x : ℚ) = x.value ↔ CastsTo (.str s) x.value := by
  cases x with
  | integer n =>
    have hcast : ((numericToInt (.integer n) : ℤ) : ℚ) = (Numeric.integer n).value ↔
        numericToInt (.integer n) = n := Int.cast_inj
    rw [hcast, numericToInt]
    constructor
    · intro h
      refine ⟨n, rfl, ?_, ?_, Or.inl hx⟩
      · by_contra hlow
        rw [if_pos (not_le.mp hlow)] at h
        omega
      · by_contra hhigh
        have hlow : ¬n < intMin := by
          have hle : intMin ≤ intMax := by decide
          omega
        rw [if_neg hlow, if_pos (not_le.mp hhigh)] at h
        omega
    · rintro ⟨m, hm, hlow, hhigh, -⟩
      obtain rfl : n = m := Int.cast_inj.mp hm
      rw [if_neg (not_lt.mpr hlow), if_neg (not_lt.mpr hhigh)]
  | decimal v =>
    rw [numericToInt, Numeric.value, saturate_ofRat_eq_iff, CastsTo]
    simp only [hx, Option.some.injEq, reduceCtorEq, false_or]

/-- When the cast of a numeric value is the number it denotes. -/
theorem toInt_eq_iff {value : Value} {v : ℚ} (h : value.number? = some v) :
    (value.toInt : ℚ) = v ↔ value.CastsTo v := by
  cases value with
  | null => cases h
  | bool b => cases h
  | arr es => cases h
  | int n => exact iff_of_true (Option.some.inj h) trivial
  | float bits =>
    rw [number?] at h
    rw [toInt, h, Option.map_some, Option.getD_some, floatToInt_eq_iff, CastsTo]
  | str s =>
    rw [number?] at h
    obtain ⟨x, hx, rfl⟩ := Option.map_eq_some_iff.mp h
    have hbegins : ∃ rest, numericPrefix s = some (x, rest) := by
      obtain ⟨⟨y, rest⟩, hy, hrest⟩ := Option.bind_eq_some_iff.mp hx
      split_ifs at hrest
      obtain rfl := Option.some.inj hrest
      exact ⟨rest, hy⟩
    obtain ⟨rest, hrest⟩ := hbegins
    rw [toInt, hrest, Option.map_some, Option.getD_some, numericToInt_eq_iff hx]

end Value

end Artha.Php
