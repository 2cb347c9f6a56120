import Artha.Dashboard.Quantity
import Artha.Html.NumberInput

/-!
# Which quantities arrive as they were entered

`parseInt` stops at the point and at the exponent, so the quantity sent is the entered one only
where the digits before them denote the whole text (`value_eq_integer`), and only where binary64 has
that integer.
-/

namespace Artha.Dashboard

open Binary64 JavaScript Html

theorem abs_signed (negative : Bool) (v : ℚ) : |signed negative v| = |v| := by
  cases negative with
  | true => exact abs_neg v
  | false => rfl

theorem signed_nonneg {negative : Bool} {v : ℚ} (hv : 0 < v) (h : 0 ≤ signed negative v) :
    negative = false := by
  cases negative with
  | true =>
    have hneg : 0 ≤ -v := h
    linarith
  | false => rfl

theorem abs_integer (t : FloatText) : |t.integer| = digitsValue t.whole := by
  rw [FloatText.integer, abs_signed, Nat.abs_cast]

theorem integer_eq_zero {t : FloatText} (h : digitsValue t.whole = 0) : t.integer = 0 := by
  rw [← abs_eq_zero, abs_integer, h, Nat.cast_zero]

/-- The digits before the exponent, as a number: between the integer and the next one. -/
theorem mantissa_bounds (t : FloatText) :
    ∃ x : ℚ, (digitsValue t.whole : ℚ) ≤ x ∧ x < digitsValue t.whole + 1 ∧
      t.value = signed t.negative (x * 10 ^ t.exponentValue) := by
  have hpow : (0 : ℚ) < 10 ^ t.fraction.length := by positivity
  have hlt : (digitsValue t.fraction : ℚ) < 10 ^ t.fraction.length := by
    exact_mod_cast digitsValue_lt t.fraction
  refine ⟨digitsValue (t.whole ++ t.fraction) / 10 ^ t.fraction.length, ?_, ?_, ?_⟩
  · rw [le_div_iff₀ hpow, digitsValue_append]
    push_cast
    have hnonneg : (0 : ℚ) ≤ digitsValue t.fraction := Nat.cast_nonneg _
    linarith
  · rw [div_lt_iff₀ hpow, digitsValue_append]
    push_cast
    linarith
  · rw [FloatText.value, zpow_sub₀ (by norm_num), zpow_natCast, div_mul_eq_mul_div, mul_div_assoc]

/-- A power of ten that moves a number by no more than half of its integer part is one. -/
theorem exponent_eq_zero {w x : ℚ} {e : ℤ} (hone : 1 ≤ w) (hlow : w ≤ x) (hhigh : x < w + 1)
    (hlower : w / 2 ≤ x * 10 ^ e) (hupper : x * 10 ^ e ≤ w + w / 2) : e = 0 := by
  have hx : 0 ≤ x := by linarith
  rcases lt_trichotomy e 0 with hneg | hzero | hpos
  · have hpow : (10 : ℚ) ^ e ≤ 10 ^ (-1 : ℤ) := zpow_le_zpow_right₀ (by norm_num) (by omega)
    have hmul := mul_le_mul_of_nonneg_left hpow hx
    norm_num at hmul
    linarith
  · exact hzero
  · have hpow : (10 : ℚ) ^ (1 : ℤ) ≤ 10 ^ e := zpow_le_zpow_right₀ (by norm_num) (by omega)
    have hmul := mul_le_mul_of_nonneg_left hpow hx
    norm_num at hmul
    linarith

/-- A rounded integer part that is the value of the text was not rounded, and is all of the text. -/
theorem value_eq_integer {t : FloatText} {n : ℕ} (hvalue : t.value = n)
    (hrounded : rounded t.integer = n) : t.value = t.integer := by
  rcases Nat.eq_zero_or_pos (digitsValue t.whole) with hzero | hpos
  · have hinteger := integer_eq_zero hzero
    rw [hinteger, rounded_zero] at hrounded
    rw [hvalue, ← hrounded, hinteger]
  obtain ⟨x, hlow, hhigh, hx⟩ := mantissa_bounds t
  have hone : (1 : ℚ) ≤ digitsValue t.whole := by exact_mod_cast hpos
  -- rounding has not moved the integer by more than half of it
  have hclose : |t.value - t.integer| ≤ digitsValue t.whole / 2 := by
    rw [hvalue, ← hrounded, ← abs_integer]
    exact abs_rounded_sub_le (by rw [abs_integer]; exact hone)
  have hmagnitude : |t.value| = x * 10 ^ t.exponentValue := by
    rw [hx, abs_signed, abs_of_nonneg]
    have hten : (0 : ℚ) < 10 ^ t.exponentValue := zpow_pos (by norm_num) _
    exact mul_nonneg (by linarith) hten.le
  have hupper : x * 10 ^ t.exponentValue ≤ digitsValue t.whole + digitsValue t.whole / 2 := by
    have htriangle := abs_sub_abs_le_abs_sub t.value t.integer
    rw [abs_integer] at htriangle
    linarith
  have hlower : (digitsValue t.whole : ℚ) / 2 ≤ x * 10 ^ t.exponentValue := by
    have htriangle := abs_sub_abs_le_abs_sub t.integer t.value
    rw [abs_integer, abs_sub_comm] at htriangle
    linarith
  have hexponent := exponent_eq_zero hone hlow hhigh hlower hupper
  rw [hexponent, zpow_zero, mul_one] at hmagnitude hx
  have hsign : t.negative = false := by
    apply signed_nonneg (v := x) (by linarith)
    rw [← hx, hvalue]
    exact Nat.cast_nonneg n
  rw [hsign] at hx
  have hx : t.value = x := hx
  have hn : n = digitsValue t.whole := by
    have hge : digitsValue t.whole ≤ n := by
      have hge : (digitsValue t.whole : ℚ) ≤ n := by linarith
      exact_mod_cast hge
    have hlt : n < digitsValue t.whole + 1 := by
      have hlt : (n : ℚ) < digitsValue t.whole + 1 := by linarith
      exact_mod_cast hlt
    omega
  rw [hvalue, FloatText.integer, hsign, hn]
  rfl

/-! ### What is sent -/

/-- The quantity sent is the natural number `n`, and the text entered denotes `n`. -/
def Stores (input : Option FloatText) (quantity : Number) (n : ℕ) : Prop :=
  quantity = .finite n ∧ ∃ t, input = some t ∧ t.value = n

/-- A text whose integer part is sent as its value. -/
theorem stores_ofRat_iff {t : FloatText} {n : ℕ} :
    Stores (some t) (.ofRat t.integer) n ↔
      t.value = n ∧ t.value = t.integer ∧ Representable t.value := by
  constructor
  · rintro ⟨hsent, t', ht, hvalue⟩
    obtain rfl := Option.some.inj ht
    obtain ⟨hrounded, hrepresentable⟩ := Number.ofRat_eq_finite hsent
    refine ⟨hvalue, value_eq_integer hvalue hrounded.symm, ?_⟩
    rw [hvalue]
    exact hrepresentable
  · rintro ⟨hvalue, hinteger, hrepresentable⟩
    refine ⟨?_, t, rfl, hvalue⟩
    rw [← hinteger, Number.ofRat_of_representable hrepresentable, hvalue]

/-- An integer part that is not refused is a natural number. -/
theorem exists_value_eq {t : FloatText} (hlt : (Number.ofRat t.value).lt (.finite 0) = false)
    (hinteger : t.value = t.integer) (hrepresentable : Representable t.value) :
    ∃ n : ℕ, t.value = n := by
  rw [Number.ofRat_of_representable hrepresentable] at hlt
  have hnonneg : 0 ≤ t.value := not_lt.mp (of_decide_eq_false hlt)
  have habs := abs_integer t
  rw [← hinteger, abs_of_nonneg hnonneg] at habs
  exact ⟨_, habs⟩

theorem rounded_integer_ne_zero {t : FloatText} (h : 0 < digitsValue t.whole) :
    rounded t.integer ≠ 0 := by
  intro hzero
  have hone : (1 : ℚ) ≤ digitsValue t.whole := by exact_mod_cast h
  have hclose := abs_rounded_sub_le (v := t.integer) (by rw [abs_integer]; exact hone)
  rw [hzero, zero_sub, abs_neg, abs_integer] at hclose
  linarith

/-- `|| 1` stands in exactly where the digits before the point denote zero or are missing. -/
theorem cartQuantity_text (t : FloatText) :
    cartQuantity t.text = if digitsValue t.whole = 0 then .finite 1 else .ofRat t.integer := by
  rw [cartQuantity, FloatText.parseInt_text]
  by_cases hwhole : t.whole = []
  · have hzero : digitsValue t.whole = 0 := by
      rw [hwhole]
      rfl
    rw [if_pos hwhole, if_pos hzero]
    rfl
  · rw [if_neg hwhole]
    rcases Nat.eq_zero_or_pos (digitsValue t.whole) with hzero | hpos
    · have hnumber : Number.ofRat 0 = .finite 0 := by
        exact_mod_cast Number.ofRat_intCast (show |(0 : ℤ)| < 2 ^ 53 by norm_num)
      rw [if_pos hzero, integer_eq_zero hzero, hnumber]
      rfl
    · have htruthy : truthy (.ofRat t.integer) = true := by
        rw [Number.ofRat]
        split_ifs
        · rfl
        · exact decide_eq_true (rounded_integer_ne_zero hpos)
      rw [if_neg hpos.ne', if_pos htruthy]

theorem saveStockUpdate_stores_iff (stockId note : JsString) (t : FloatText) :
    (∀ r, saveStockUpdate stockId t.text note = some r → ∃ n, Stores (some t) r.quantity n) ↔
      (Number.ofRat t.value).lt (.finite 0) = true ∨
        t.whole ≠ [] ∧ t.value = t.integer ∧ Representable t.value := by
  cases hlt : (Number.ofRat t.value).lt (.finite 0) with
  | true =>
    have hrefused : saveStockUpdate stockId t.text note = none := by
      rw [saveStockUpdate, FloatText.stringToNumber_text, hlt, if_pos (by simp)]
    simp [hrefused]
  | false =>
    have hsent : saveStockUpdate stockId t.text note =
        some ⟨parseInt stockId, parseInt t.text, note⟩ := by
      rw [saveStockUpdate, FloatText.stringToNumber_text, hlt, if_neg (by simp [t.text_ne_nil])]
    rw [hsent]
    simp only [Option.some.injEq, forall_eq', FloatText.parseInt_text, Bool.false_eq_true, false_or]
    by_cases hwhole : t.whole = []
    · simp [hwhole, Stores]
    · simp only [hwhole, if_false, stores_ofRat_iff]
      constructor
      · rintro ⟨n, -, hrest⟩
        exact ⟨hwhole, hrest⟩
      · rintro ⟨-, hinteger, hrepresentable⟩
        obtain ⟨n, hn⟩ := exists_value_eq hlt hinteger hrepresentable
        exact ⟨n, hn, hinteger, hrepresentable⟩

theorem cartQuantity_stores_iff (t : FloatText) :
    (∃ n, 0 < n ∧ Stores (some t) (cartQuantity t.text) n) ↔
      0 < t.value ∧ t.value = t.integer ∧ Representable t.value ∨
        digitsValue t.whole = 0 ∧ t.value = 1 := by
  rw [cartQuantity_text]
  rcases Nat.eq_zero_or_pos (digitsValue t.whole) with hzero | hpos
  · have hinteger : t.integer = 0 := by
      rw [← abs_eq_zero, abs_integer, hzero, Nat.cast_zero]
    rw [if_pos hzero]
    constructor
    · rintro ⟨n, -, hsent, t', ht, hvalue⟩
      obtain rfl := Option.some.inj ht
      have hone : (1 : ℚ) = n := Number.finite.inj hsent
      exact Or.inr ⟨hzero, by rw [hvalue, ← hone]⟩
    · rintro (⟨hvalue, hsame, -⟩ | ⟨-, hone⟩)
      · rw [hsame, hinteger] at hvalue
        exact absurd hvalue (lt_irrefl 0)
      · exact ⟨1, Nat.one_pos, by rw [Nat.cast_one], t, rfl, by rw [hone, Nat.cast_one]⟩
  · rw [if_neg hpos.ne']
    simp only [stores_ofRat_iff]
    constructor
    · rintro ⟨n, hn, hvalue, hrest⟩
      have hvalue' : 0 < t.value := by
        rw [hvalue]
        exact_mod_cast hn
      exact Or.inl ⟨hvalue', hrest⟩
    · rintro (⟨hvalue, hsame, hrepresentable⟩ | ⟨hzero, -⟩)
      · have hn : t.value = digitsValue t.whole := by
          rw [← abs_integer, ← hsame, abs_of_pos hvalue]
        exact ⟨_, hpos, hn, hsame, hrepresentable⟩
      · omega

/-- The stock page stores what was entered exactly if it refuses it, or if the digits before the
point and the exponent denote all of it and are a binary64 integer.  The dashboard never refuses,
and sends what was entered exactly if it is such a number and positive, or if it is `1` written with
only zeros before the point, which becomes `1` by default. -/
theorem quantity_stored_iff {α : Type} (stockId note : JsString) (productId : α)
    (input : Option FloatText) :
    ((∀ r, saveStockUpdate stockId (inputText input) note = some r →
        ∃ n, Stores input r.quantity n) ↔
      ∀ t, input = some t → (Number.ofRat t.value).lt (.finite 0) = true ∨
        t.whole ≠ [] ∧ t.value = t.integer ∧ Representable t.value) ∧
    ((∃ n, 0 < n ∧ Stores input (addToCart productId (inputText input)).quantity n) ↔
      ∃ t, input = some t ∧ (0 < t.value ∧ t.value = t.integer ∧ Representable t.value ∨
        digitsValue t.whole = 0 ∧ t.value = 1)) := by
  cases input with
  | none =>
    constructor
    · simp [saveStockUpdate, inputText]
    · simp [Stores]
  | some t =>
    constructor
    · rw [inputText, saveStockUpdate_stores_iff]
      simp
    · have hcart := cartQuantity_stores_iff t
      simp only [addToCart, inputText, hcart, Option.some.injEq, exists_eq_left']

/-- A thousand, written `1e3`, is sent as one by both pages. -/
theorem quantity_stored_exponent :
    let input : FloatText := ⟨false, [1], [], some ⟨false, none, [3], by decide⟩, by decide⟩
    input.text = [49, 101, 51] ∧ input.value = 1000 ∧
      (saveStockUpdate [] input.text []).map (·.quantity) = some (.finite 1) ∧
      (addToCart () input.text).quantity = .finite 1 := by
  intro input
  have hvalue : input.value = 1000 := by
    have hdigits : digitsValue (input.whole ++ input.fraction) = 1 := by decide
    have hexponent : input.exponentValue - input.fraction.length = 3 := by decide
    have hsign : input.negative = false := rfl
    rw [FloatText.value, hdigits, hexponent, hsign, signed]
    norm_num
  have hinteger : input.integer = 1 := by
    norm_num [input, FloatText.integer, signed, digitsValue]
  have hone : Number.ofRat 1 = .finite 1 := by
    exact_mod_cast Number.ofRat_intCast (show |(1 : ℤ)| < 2 ^ 53 by norm_num)
  have hthousand : Number.ofRat 1000 = .finite 1000 := by
    exact_mod_cast Number.ofRat_intCast (show |(1000 : ℤ)| < 2 ^ 53 by norm_num)
  have hparse : parseInt input.text = .finite 1 := by
    rw [FloatText.parseInt_text, hinteger, hone]
    rfl
  refine ⟨by decide, hvalue, ?_, ?_⟩
  · have hlt : (stringToNumber input.text).lt (.finite 0) = false := by
      rw [FloatText.stringToNumber_text, hvalue, hthousand]
      simp [Number.lt]
    rw [saveStockUpdate, hlt, if_neg (by simp [input.text_ne_nil])]
    exact congrArg some hparse
  · rw [addToCart, cartQuantity, hparse]
    rfl

end Artha.Dashboard
