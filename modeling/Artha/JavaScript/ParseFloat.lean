import Artha.JavaScript.Json

/-!
# `parseFloat`

The longest prefix of a text that is a decimal literal.  A value that is no text becomes one first.
The text of a number denotes that number; of an array's text only the first element counts, since no
literal goes beyond a comma.
-/

namespace Artha.JavaScript

open Binary64

/-- The exponent at the start of a text; zero if there is none. -/
def exponentPrefix : JsString → ℤ
  | [] => 0
  | c :: s =>
    let digits := (sign s).2.takeWhile (isDigit 10)
    if c = 101 ∨ c = 69 then
      if (sign s).1 then -(ofDigits 10 digits) else ofDigits 10 digits
    else 0

/-- `parseFloat(s)`. -/
def parseFloatText (s : JsString) : Number :=
  let negative := (sign (trimStart s)).1
  let unsigned := (sign (trimStart s)).2
  let whole := unsigned.takeWhile (isDigit 10)
  let fraction := (fractionPart (unsigned.dropWhile (isDigit 10))).1
  let exponent := exponentPrefix (fractionPart (unsigned.dropWhile (isDigit 10))).2
  if infinityText.isPrefixOf unsigned then .infinity negative
  else if whole = [] ∧ fraction = [] then .nan
  else .ofRat (signed negative
    ((ofDigits 10 (whole ++ fraction) : ℚ) * 10 ^ (exponent - fraction.length)))

namespace Json

mutual

/-- The number that the text of a value begins with. -/
def textFloat : Json → Number
  | .null => .nan
  | .bool _ => .nan
  | .number x => x
  | .string s => parseFloatText s
  | .array elements => textsFloat elements
  | .object _ => .nan

def textsFloat : List Json → Number
  | [] => .nan
  | v :: _ => textFloat v

end

end Json

/-- `parseFloat(v)`, where `none` for `v` is `undefined`; none is a `TypeError`. -/
def parseFloat : Option Json → Option Number
  | none => some .nan
  | some v => if v.textThrows then none else some v.textFloat

end Artha.JavaScript
