import Mathlib.Data.List.DropRight
import Artha.Binary64.Basic

/-!
# Numbers and texts in JavaScript

A string is the list of its UTF-16 code units.  `stringToNumber` is the conversion that `Number` and
the operators `<` and `*` apply to a string, `parseInt` the prefix reader of that name, without a
radix.  Both round the mathematical value of the digits once.
-/

namespace Artha.JavaScript

open Binary64

/-- A string: its code units. -/
abbrev JsString : Type := List UInt16

/-- White space and line terminators. -/
def isWhiteSpace (c : UInt16) : Bool :=
  9 ≤ c && c ≤ 13 || c = 32 || c = 0xA0 || c = 0x1680 || 0x2000 ≤ c && c ≤ 0x200A || c = 0x2028 ||
    c = 0x2029 || c = 0x202F || c = 0x205F || c = 0x3000 || c = 0xFEFF

def trimStart (s : JsString) : JsString := s.dropWhile isWhiteSpace

def trim (s : JsString) : JsString := (trimStart s).rdropWhile isWhiteSpace

/-- The value of a letter or digit as a digit. -/
def digitValue (c : UInt16) : Option Nat :=
  if 48 ≤ c ∧ c ≤ 57 then some (c.toNat - 48)
  else if 97 ≤ c ∧ c ≤ 122 then some (c.toNat - 87)
  else if 65 ≤ c ∧ c ≤ 90 then some (c.toNat - 55)
  else none

def isDigit (radix : Nat) (c : UInt16) : Bool := (digitValue c).any (· < radix)

/-- The number that digits denote. -/
def ofDigits (radix : Nat) (s : JsString) : Nat :=
  s.foldl (fun n c => radix * n + (digitValue c).getD 0) 0

/-- An optional sign, and what follows it; true is minus. -/
def sign : JsString → Bool × JsString
  | [] => (false, [])
  | c :: s => if c = 45 then (true, s) else if c = 43 then (false, s) else (false, c :: s)

def signed (negative : Bool) (v : ℚ) : ℚ := if negative then -v else v

/-- `Infinity`. -/
def infinityText : JsString := [73, 110, 102, 105, 110, 105, 116, 121]

/-! ### The conversion of a string -/

/-- The exponent of a decimal literal, to the end of the text. -/
def exponentPart : JsString → Option ℤ
  | [] => some 0
  | c :: s =>
    if c = 101 ∨ c = 69 then
      if (sign s).2 ≠ [] ∧ (sign s).2.all (isDigit 10) then
        some (if (sign s).1 then -(ofDigits 10 (sign s).2) else ofDigits 10 (sign s).2)
      else none
    else none

/-- The digits after a decimal point, and what follows them. -/
def fractionPart : JsString → JsString × JsString
  | [] => ([], [])
  | c :: s => if c = 46 then (s.takeWhile (isDigit 10), s.dropWhile (isDigit 10)) else ([], c :: s)

/-- An unsigned decimal literal, to the end of the text. -/
def decimalLiteral (s : JsString) : Option ℚ :=
  let whole := s.takeWhile (isDigit 10)
  let fraction := (fractionPart (s.dropWhile (isDigit 10))).1
  if whole = [] ∧ fraction = [] then none
  else
    (exponentPart (fractionPart (s.dropWhile (isDigit 10))).2).map fun e : ℤ =>
      (ofDigits 10 (whole ++ fraction) : ℚ) * 10 ^ (e - fraction.length)

/-- The radix that the letter after a leading zero stands for. -/
def literalRadix (c : UInt16) : Option Nat :=
  if c = 98 ∨ c = 66 then some 2
  else if c = 111 ∨ c = 79 then some 8
  else if c = 120 ∨ c = 88 then some 16
  else none

/-- `0b...`, `0o...` and `0x...`. -/
def nonDecimalLiteral : JsString → Option Nat
  | zero :: c :: digits =>
    if zero = 48 then
      (literalRadix c).bind fun radix =>
        if digits ≠ [] ∧ digits.all (isDigit radix) then some (ofDigits radix digits) else none
    else none
  | _ => none

/-- A text without the letters that select a radix is no such literal. -/
theorem nonDecimalLiteral_eq_none {s : JsString} (h : ∀ c ∈ s, literalRadix c = none) :
    nonDecimalLiteral s = none := by
  obtain _ | ⟨zero, _ | ⟨c, digits⟩⟩ := s
  · rfl
  · rfl
  · have hc := h c (by simp)
    simp [nonDecimalLiteral, hc]

/-- `Number(s)`. -/
def stringToNumber (s : JsString) : Number :=
  if trim s = [] then .finite 0
  else
    match nonDecimalLiteral (trim s) with
    | some n => .ofRat n
    | none =>
      if (sign (trim s)).2 = infinityText then .infinity (sign (trim s)).1
      else
        match decimalLiteral (sign (trim s)).2 with
        | some v => .ofRat (signed (sign (trim s)).1 v)
        | none => .nan

/-! ### `parseInt` -/

/-- A leading `0x` selects radix 16. -/
def parseIntRadix : JsString → Nat × JsString
  | zero :: c :: s => if zero = 48 ∧ (c = 120 ∨ c = 88) then (16, s) else (10, zero :: c :: s)
  | s => (10, s)

theorem parseIntRadix_eq {s : JsString} (h : ∀ c ∈ s, literalRadix c = none) :
    parseIntRadix s = (10, s) := by
  obtain _ | ⟨zero, _ | ⟨c, digits⟩⟩ := s
  · rfl
  · rfl
  · have hc := h c (by simp)
    have hx : ¬(c = 120 ∨ c = 88) := by
      rintro (rfl | rfl) <;> exact absurd hc (by decide)
    simp [parseIntRadix, hx]

/-- `parseInt(s)`. -/
def parseInt (s : JsString) : Number :=
  let negative := (sign (trimStart s)).1
  let radix := (parseIntRadix (sign (trimStart s)).2).1
  let digits := (parseIntRadix (sign (trimStart s)).2).2.takeWhile (isDigit radix)
  if digits = [] then .nan else .ofRat (signed negative (ofDigits radix digits))

/-- A number as a condition. -/
def truthy : Number → Bool
  | .nan => false
  | .infinity _ => true
  | .finite v => v ≠ 0

end Artha.JavaScript
