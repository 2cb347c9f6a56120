import Artha.JavaScript.Number

/-!
# Values that `JSON.parse` can return

`truthy` and `toNumber` are the conversions that `!` and `*` apply to them.  To become a number an
array or an object first becomes a text: an object's is `[object Object]`, an array's the texts of
its elements with commas between them, which denotes a number only if there is at most one element.
An object with a `toString` of its own, which is no function, has no text, and the conversion
throws.
-/

namespace Artha.JavaScript

open Binary64

inductive Json where
  | null
  | bool (b : Bool)
  | number (x : Number)
  | string (s : JsString)
  | array (elements : List Json)
  | object (fields : List (JsString × Json))

namespace Json

/-- `!!v`. -/
def truthy : Json → Bool
  | .null => false
  | .bool b => b
  | .number x => JavaScript.truthy x
  | .string s => s ≠ []
  | .array _ => true
  | .object _ => true

/-- `v.key`, for a key that no prototype has; none is `undefined`. -/
def get? (key : JsString) : Json → Option Json
  | .object fields => fields.lookup key
  | _ => none

/-- `toString`. -/
def toStringKey : JsString := [116, 111, 83, 116, 114, 105, 110, 103]

mutual

/-- The conversion to a text throws. -/
def textThrows : Json → Bool
  | .array elements => textsThrow elements
  | .object fields => (fields.lookup toStringKey).isSome
  | _ => false

def textsThrow : List Json → Bool
  | [] => false
  | v :: elements => textThrows v || textsThrow elements

end

mutual

/-- The number that the text of an array's only element denotes: `null` is left out, and the text of
a number denotes that number. -/
def elementNumber : Json → Number
  | .null => .finite 0
  | .bool _ => .nan
  | .number x => x
  | .string s => stringToNumber s
  | .array elements => elementsNumber elements
  | .object _ => .nan

/-- The number that the text of an array denotes. -/
def elementsNumber : List Json → Number
  | [] => .finite 0
  | [v] => elementNumber v
  | _ => .nan

end

/-- The conversion to a number; none is a `TypeError`. -/
def toNumber : Json → Option Number
  | .null => some (.finite 0)
  | .bool b => some (.finite (if b then 1 else 0))
  | .number x => some x
  | .string s => some (stringToNumber s)
  | .array elements => if textsThrow elements then none else some (elementsNumber elements)
  | .object fields => if textThrows (.object fields) then none else some .nan

end Json

end Artha.JavaScript
