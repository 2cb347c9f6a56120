import Mathlib.Data.List.Induction
import Mathlib.Tactic.Ring
import Artha.JavaScript.Number
import Artha.JavaScript.ParseFloat

/-!
# What a number input holds

The value of an `<input type="number">` is a valid floating-point number or the empty string.  A
valid one is given by its parts, so that no other text can be built; `text` writes them out, and
`value` is the number they denote.  `stringToNumber_text`, `parseFloatText_text` and `parseInt_text`
say how the conversions of JavaScript read such a text: the first two read all of it, the last the
digits up to the point or the exponent.
-/

namespace Artha.Html

open Binary64 JavaScript

/-- `e` or `E`, an optional sign and the digits. -/
structure Exponent where
  upper : Bool
  /-- True is minus. -/
  sign : Option Bool
  digits : List (Fin 10)
  digits_ne_nil : digits ≠ []

/-- A valid floating-point number. -/
structure FloatText where
  negative : Bool
  whole : List (Fin 10)
  /-- The digits after the point; without any there is no point. -/
  fraction : List (Fin 10)
  exponent : Option Exponent
  digits_ne_nil : whole ≠ [] ∨ fraction ≠ []

/-- The code unit of a digit. -/
def digitUnit (d : Fin 10) : UInt16 := UInt16.ofNat (48 + d)

/-- The number that decimal digits denote. -/
def digitsValue (digits : List (Fin 10)) : Nat :=
  digits.foldl (fun (n : Nat) (d : Fin 10) => 10 * n + d.val) 0

def signText : Option Bool → JsString
  | none => []
  | some true => [45]
  | some false => [43]

namespace Exponent

def text (e : Exponent) : JsString :=
  (if e.upper then 69 else 101) :: (signText e.sign ++ e.digits.map digitUnit)

def value (e : Exponent) : ℤ :=
  if e.sign = some true then -(digitsValue e.digits) else digitsValue e.digits

end Exponent

namespace FloatText

variable (t : FloatText)

def exponentText : JsString := t.exponent.elim [] Exponent.text

def exponentValue : ℤ := t.exponent.elim 0 Exponent.value

def fractionText : JsString := if t.fraction = [] then [] else 46 :: t.fraction.map digitUnit

/-- What follows the sign. -/
def unsignedText : JsString := t.whole.map digitUnit ++ (t.fractionText ++ t.exponentText)

def text : JsString := (if t.negative then [45] else []) ++ t.unsignedText

/-- The integer before the point and the exponent. -/
def integer : ℚ := signed t.negative (digitsValue t.whole)

def value : ℚ :=
  signed t.negative
    (digitsValue (t.whole ++ t.fraction) * 10 ^ (t.exponentValue - t.fraction.length))

end FloatText

/-- `input.value`. -/
def inputText : Option FloatText → JsString
  | none => []
  | some t => t.text

/-! ### Digits -/

theorem digitValue_digitUnit : ∀ d : Fin 10, digitValue (digitUnit d) = some d.val := by decide

theorem isDigit_digitUnit : ∀ d : Fin 10, isDigit 10 (digitUnit d) = true := by decide

theorem isDigit_of_mem_map {ds : List (Fin 10)} : ∀ c ∈ ds.map digitUnit, isDigit 10 c = true := by
  intro c hc
  obtain ⟨d, -, rfl⟩ := List.mem_map.mp hc
  exact isDigit_digitUnit d

theorem ofDigits_map (ds : List (Fin 10)) : ofDigits 10 (ds.map digitUnit) = digitsValue ds := by
  rw [ofDigits, digitsValue, List.foldl_map]
  simp only [digitValue_digitUnit, Option.getD_some]

theorem digitsValue_append_singleton (ds : List (Fin 10)) (d : Fin 10) :
    digitsValue (ds ++ [d]) = 10 * digitsValue ds + d.val := by
  rw [digitsValue, List.foldl_append]
  rfl

theorem digitsValue_append (ds ds' : List (Fin 10)) :
    digitsValue (ds ++ ds') = digitsValue ds * 10 ^ ds'.length + digitsValue ds' := by
  induction ds' using List.reverseRecOn with
  | nil => simp [digitsValue]
  | append_singleton ds' d ih =>
    rw [← List.append_assoc, digitsValue_append_singleton, digitsValue_append_singleton, ih,
      List.length_append, List.length_singleton, pow_succ]
    ring

theorem digitsValue_lt (ds : List (Fin 10)) : digitsValue ds < 10 ^ ds.length := by
  induction ds using List.reverseRecOn with
  | nil => simp [digitsValue]
  | append_singleton ds d ih =>
    have hd := d.isLt
    rw [digitsValue_append_singleton, List.length_append, List.length_singleton, pow_succ]
    omega

/-- A sign before digits is read as it was written. -/
theorem sign_signText (o : Option Bool) {ds : List (Fin 10)} (h : ds ≠ []) :
    sign (signText o ++ ds.map digitUnit) = (decide (o = some true), ds.map digitUnit) := by
  obtain _ | ⟨d, ds⟩ := ds
  · exact absurd rfl h
  have hd : ∀ d : Fin 10, digitUnit d ≠ 45 ∧ digitUnit d ≠ 43 := by decide
  rcases o with _ | _ | _
  · simp [signText, sign, hd d]
  · simp [signText, sign]
  · simp [signText, sign]

/-! ### The code units of a text -/

/-- Digits, the signs, the point and the letter of the exponent. -/
def IsUnit (c : UInt16) : Prop := (∃ d, c = digitUnit d) ∨ c ∈ ([43, 45, 46, 69, 101] : JsString)

theorem IsUnit.ordinary {c : UInt16} (h : IsUnit c) :
    isWhiteSpace c = false ∧ literalRadix c = none ∧ c ≠ 73 := by
  have hdigits : ∀ d : Fin 10, isWhiteSpace (digitUnit d) = false ∧
      literalRadix (digitUnit d) = none ∧ digitUnit d ≠ 73 := by decide
  have hothers : ∀ c ∈ ([43, 45, 46, 69, 101] : JsString), isWhiteSpace c = false ∧
      literalRadix c = none ∧ c ≠ 73 := by
    simp only [List.forall_mem_cons]
    exact ⟨by decide, by decide, by decide, by decide, by decide, by simp⟩
  rcases h with ⟨d, rfl⟩ | h
  · exact hdigits d
  · exact hothers c h

theorem isUnit_of_mem_map {ds : List (Fin 10)} {c : UInt16} (h : c ∈ ds.map digitUnit) :
    IsUnit c := by
  obtain ⟨d, -, rfl⟩ := List.mem_map.mp h
  exact Or.inl ⟨d, rfl⟩

theorem Exponent.isUnit_of_mem {e : Exponent} {c : UInt16} (h : c ∈ e.text) : IsUnit c := by
  rw [text, List.mem_cons, List.mem_append] at h
  rcases h with rfl | h | h
  · right
    cases e.upper <;> decide
  · right
    rcases hs : e.sign with _ | _ | _ <;> rw [hs] at h <;> simp_all [signText]
  · exact isUnit_of_mem_map h

namespace FloatText

variable {t : FloatText}

theorem isUnit_of_mem {c : UInt16} (h : c ∈ t.text) : IsUnit c := by
  rw [text, unsignedText, List.mem_append, List.mem_append, List.mem_append] at h
  rcases h with h | h | h | h
  · right
    cases hn : t.negative <;> rw [hn] at h <;> simp_all
  · exact isUnit_of_mem_map h
  · rw [fractionText] at h
    split_ifs at h with hf
    · simp at h
    · rcases List.mem_cons.mp h with rfl | h
      · right
        decide
      · exact isUnit_of_mem_map h
  · rw [exponentText] at h
    cases he : t.exponent with
    | none =>
      rw [he] at h
      simp at h
    | some e =>
      rw [he] at h
      exact Exponent.isUnit_of_mem h

theorem trimStart_text (t : FloatText) : trimStart t.text = t.text := by
  rw [trimStart, List.dropWhile_eq_self_iff]
  intro hl
  have hunit := (isUnit_of_mem (t := t) (List.getElem_mem hl)).ordinary.1
  simp [hunit]

theorem trim_text (t : FloatText) : trim t.text = t.text := by
  rw [trim, trimStart_text, List.rdropWhile_eq_self_iff]
  intro hl
  have hunit := (isUnit_of_mem (t := t) (List.getLast_mem hl)).ordinary.1
  simp [hunit]

theorem text_ne_nil (t : FloatText) : t.text ≠ [] := by
  rw [text, unsignedText, fractionText]
  rcases t.digits_ne_nil with h | h
  · simp [h]
  · simp [h]

theorem mem_text_of_mem_unsignedText {c : UInt16} (h : c ∈ t.unsignedText) : c ∈ t.text :=
  List.mem_append_right _ h

theorem sign_text (t : FloatText) : sign t.text = (t.negative, t.unsignedText) := by
  rw [text]
  cases t.negative with
  | true => rfl
  | false =>
    have hd : ∀ d : Fin 10, digitUnit d ≠ 45 ∧ digitUnit d ≠ 43 := by decide
    rw [if_neg Bool.false_ne_true, List.nil_append, unsignedText]
    cases hw : t.whole with
    | cons d ds => simp [sign, hd d]
    | nil =>
      -- without digits before it the text begins with the point
      have hf : t.fraction ≠ [] := t.digits_ne_nil.resolve_left (by simp [hw])
      simp [sign, fractionText, hf]

/-! ### The conversions -/

theorem exponentText_takeWhile (t : FloatText) :
    t.exponentText.takeWhile (isDigit 10) = [] ∧
      t.exponentText.dropWhile (isDigit 10) = t.exponentText := by
  have hexponent : ∀ b : Bool, isDigit 10 (if b then 69 else 101) = false := by decide
  rw [exponentText]
  cases t.exponent with
  | none => exact ⟨rfl, rfl⟩
  | some e => simp [Exponent.text, hexponent]

theorem fractionText_append_takeWhile (t : FloatText) :
    (t.fractionText ++ t.exponentText).takeWhile (isDigit 10) = [] ∧
      (t.fractionText ++ t.exponentText).dropWhile (isDigit 10) =
        t.fractionText ++ t.exponentText := by
  have hpoint : isDigit 10 46 = false := by decide
  rw [fractionText]
  split_ifs with hf
  · exact exponentText_takeWhile t
  · simp [hpoint]

theorem unsignedText_takeWhile (t : FloatText) :
    t.unsignedText.takeWhile (isDigit 10) = t.whole.map digitUnit := by
  rw [unsignedText, List.takeWhile_append_of_pos isDigit_of_mem_map,
    (fractionText_append_takeWhile t).1, List.append_nil]

theorem unsignedText_dropWhile (t : FloatText) :
    t.unsignedText.dropWhile (isDigit 10) = t.fractionText ++ t.exponentText := by
  rw [unsignedText, List.dropWhile_append_of_pos isDigit_of_mem_map,
    (fractionText_append_takeWhile t).2]

theorem fractionPart_text (t : FloatText) :
    fractionPart (t.fractionText ++ t.exponentText) =
      (t.fraction.map digitUnit, t.exponentText) := by
  rw [fractionText]
  split_ifs with hf
  · rw [hf, exponentText]
    cases t.exponent with
    | none => rfl
    | some e =>
      have hpoint : ∀ b : Bool, (if b then 69 else 101 : UInt16) ≠ 46 := by decide
      simp [Exponent.text, fractionPart, hpoint e.upper]
  · rw [List.cons_append, fractionPart, if_pos rfl,
      List.takeWhile_append_of_pos isDigit_of_mem_map,
      List.dropWhile_append_of_pos isDigit_of_mem_map, (exponentText_takeWhile t).1,
      (exponentText_takeWhile t).2, List.append_nil]

theorem exponentPart_text (t : FloatText) :
    exponentPart t.exponentText = some t.exponentValue := by
  rw [exponentText, exponentValue]
  cases t.exponent with
  | none => rfl
  | some e =>
    have hletter : (if e.upper then 69 else 101 : UInt16) = 101 ∨
        (if e.upper then 69 else 101 : UInt16) = 69 := by cases e.upper <;> decide
    have hdigits : (e.digits.map digitUnit).all (isDigit 10) = true :=
      List.all_eq_true.mpr isDigit_of_mem_map
    simp only [Option.elim_some, Exponent.text, exponentPart, hletter, if_true,
      sign_signText e.sign e.digits_ne_nil, hdigits, and_true, ofDigits_map, Exponent.value,
      decide_eq_true_eq]
    rw [if_pos (by simpa using e.digits_ne_nil)]

theorem decimalLiteral_text (t : FloatText) :
    decimalLiteral t.unsignedText =
      some ((digitsValue (t.whole ++ t.fraction) : ℚ) *
        10 ^ (t.exponentValue - t.fraction.length)) := by
  have hdigits : ¬(t.whole.map digitUnit = [] ∧ t.fraction.map digitUnit = []) := by
    rw [List.map_eq_nil_iff, List.map_eq_nil_iff, not_and_or]
    exact t.digits_ne_nil
  rw [decimalLiteral, unsignedText_takeWhile, unsignedText_dropWhile, fractionPart_text]
  dsimp only
  rw [if_neg hdigits, exponentPart_text, Option.map_some, ← List.map_append, ofDigits_map,
    List.length_map]

/-- `Number` reads the whole text. -/
theorem stringToNumber_text (t : FloatText) : stringToNumber t.text = .ofRat t.value := by
  have hradix : nonDecimalLiteral t.text = none :=
    nonDecimalLiteral_eq_none fun c hc => (isUnit_of_mem hc).ordinary.2.1
  have hinfinity : t.unsignedText ≠ infinityText := by
    intro h
    have hmem : (73 : UInt16) ∈ t.text := mem_text_of_mem_unsignedText (by rw [h]; decide)
    exact (isUnit_of_mem hmem).ordinary.2.2 rfl
  rw [stringToNumber, trim_text, if_neg t.text_ne_nil, hradix, sign_text]
  dsimp only
  rw [if_neg hinfinity, decimalLiteral_text, value]

/-- `parseInt` reads the digits before the point and the exponent, and needs one of them. -/
theorem parseInt_text (t : FloatText) :
    parseInt t.text = if t.whole = [] then .nan else .ofRat t.integer := by
  have hradix : parseIntRadix t.unsignedText = (10, t.unsignedText) :=
    parseIntRadix_eq fun c hc => (isUnit_of_mem (mem_text_of_mem_unsignedText hc)).ordinary.2.1
  rw [parseInt, trimStart_text, sign_text]
  dsimp only
  rw [hradix]
  dsimp only
  rw [unsignedText_takeWhile, ofDigits_map]
  simp only [List.map_eq_nil_iff, integer]

theorem exponentPrefix_text (t : FloatText) : exponentPrefix t.exponentText = t.exponentValue := by
  rw [exponentText, exponentValue]
  cases t.exponent with
  | none => rfl
  | some e =>
    have hletter : (if e.upper then 69 else 101 : UInt16) = 101 ∨
        (if e.upper then 69 else 101 : UInt16) = 69 := by cases e.upper <;> decide
    have hdigits : (e.digits.map digitUnit).takeWhile (isDigit 10) = e.digits.map digitUnit :=
      List.takeWhile_eq_self_iff.mpr isDigit_of_mem_map
    simp only [Option.elim_some, Exponent.text, exponentPrefix, hletter, if_true,
      sign_signText e.sign e.digits_ne_nil, hdigits, ofDigits_map, Exponent.value,
      decide_eq_true_eq]

/-- `parseFloat` reads the whole text too. -/
theorem parseFloatText_text (t : FloatText) : parseFloatText t.text = .ofRat t.value := by
  have hinfinity : infinityText.isPrefixOf t.unsignedText = false := by
    rw [Bool.eq_false_iff, Ne, List.isPrefixOf_iff_prefix]
    intro h
    have hmem : (73 : UInt16) ∈ t.text :=
      mem_text_of_mem_unsignedText (h.subset (by decide))
    exact (isUnit_of_mem hmem).ordinary.2.2 rfl
  have hdigits : ¬(t.whole.map digitUnit = [] ∧ t.fraction.map digitUnit = []) := by
    rw [List.map_eq_nil_iff, List.map_eq_nil_iff, not_and_or]
    exact t.digits_ne_nil
  rw [parseFloatText, trimStart_text, sign_text]
  dsimp only
  rw [unsignedText_takeWhile, unsignedText_dropWhile, fractionPart_text]
  dsimp only
  rw [hinfinity, if_neg Bool.false_ne_true, if_neg hdigits, exponentPrefix_text, ← List.map_append,
    ofDigits_map, List.length_map, value]

end FloatText

end Artha.Html
