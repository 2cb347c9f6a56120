import Artha.Php.Value

/-!
# The validator

The rules of `Validator::make` that the controllers use, with the outcome the controllers look at:
the first message of the error bag (`firstError`), or `none` when the data pass.

Every attribute the controllers validate carries `required`, so the rules of an attribute are
tried in order and the first that fails gives the attribute's message; attributes are tried in the
order of the rule array, a wildcard attribute (`raw_materials.*.id`) once per element.

What the rules delegate to other packages is a field of `Rules`: the e-mail syntax check, the
lookup of `unique:users`, the comparison of a number with the bound of `min`, and the texts of the
messages.
-/

namespace Artha.Laravel

open Php

/-- A validation rule. -/
inductive Rule where
  | required
  | string
  | email
  | integer
  | numeric
  | array
  | max (n : Nat)
  | min (n : Nat)
  | oneOf (allowed : List String)
  | uniqueUsers
deriving DecidableEq, Repr

/-- The attribute a list of rules is about: a key of the input, or every element of a list under a
key (`cart_ids.*`), or a key of every element (`raw_materials.*.id`). -/
inductive Attribute where
  | key (k : String)
  | each (k : String)
  | eachKey (k sub : String)
deriving DecidableEq, Repr

/-- The parts of the validator that other packages decide. -/
structure Rules where
  /-- PHP's conversion of a double to a string. -/
  floatToString : UInt64 → String
  /-- Laravel's `email` rule on a string. -/
  validEmail : String → Bool
  /-- A row of `users` has this e-mail. -/
  emailTaken : Value → Bool
  /-- The number a numeric value denotes is at least the bound. -/
  numberAtLeast : Value → Nat → Bool
  /-- The message for an attribute that fails a rule. -/
  message : String → Rule → String

/-! ### `FILTER_VALIDATE_INT` and `is_numeric` -/

/-- The blanks `filter_var` trims. -/
def isFilterBlank (c : Char) : Bool :=
  c == ' ' || c == '\t' || c == '\r' || c == '\x0b' || c == '\n'

/-- Drop the characters satisfying `p` at both ends. -/
def trimBy (p : Char → Bool) (cs : List Char) : List Char :=
  ((cs.dropWhile p).reverse.dropWhile p).reverse

/-- The number a list of decimal digits denotes. -/
def digitsValue (cs : List Char) : Nat :=
  cs.foldl (fun n c => 10 * n + (c.toNat - '0'.toNat)) 0

/-- `php_filter_parse_int` behind the sign: a lone `0`, or digits that do not start with `0`. -/
def filterDigits (cs : List Char) : Option Nat :=
  if cs = ['0'] then some 0
  else if !cs.isEmpty && cs.all Char.isDigit && cs.head? != some '0' then some (digitsValue cs)
  else none

/-- `PHP_INT_MAX`. -/
def phpIntMax : Nat := 9223372036854775807

/-- `filter_var($s, FILTER_VALIDATE_INT)` for a string; `none` is `false`. -/
def filterInt (s : String) : Option Int :=
  match trimBy isFilterBlank s.toList with
  | '-' :: cs =>
    match filterDigits cs with
    | some n => if n ≤ phpIntMax + 1 then some (-(n : Int)) else none
    | none => none
  | '+' :: cs =>
    match filterDigits cs with
    | some n => if n ≤ phpIntMax then some n else none
    | none => none
  | cs =>
    match filterDigits cs with
    | some n => if n ≤ phpIntMax then some n else none
    | none => none

/-- The white space `is_numeric` allows around a number. -/
def isNumericBlank (c : Char) : Bool := isFilterBlank c || c == '\x0c'

/-- Drop a leading sign. -/
def dropSign : List Char → List Char
  | '+' :: cs => cs
  | '-' :: cs => cs
  | cs => cs

/-- An exponent part, or nothing. -/
def isExponent : List Char → Bool
  | [] => true
  | c :: cs => (c == 'e' || c == 'E') && !(dropSign cs).isEmpty && (dropSign cs).all Char.isDigit

/-- `is_numeric` on a string: blanks, sign, digits with an optional point, exponent, blanks. -/
def isNumericString (s : String) : Bool :=
  let cs := dropSign (trimBy isNumericBlank s.toList)
  let whole := cs.takeWhile Char.isDigit
  match cs.dropWhile Char.isDigit with
  | '.' :: rest =>
    let fraction := rest.takeWhile Char.isDigit
    !(whole.isEmpty && fraction.isEmpty) && isExponent (rest.dropWhile Char.isDigit)
  | rest => !whole.isEmpty && isExponent rest

/-- `is_numeric`. -/
def isNumeric : Value → Bool
  | .int _ | .float _ => true
  | .str s => isNumericString s
  | _ => false

/-! ### The rules -/

/-- The characters `trim` removes. -/
def isTrimBlank (c : Char) : Bool := isFilterBlank c || c == '\x00'

/-- `required`: present, not a blank string, not an empty array. -/
def passesRequired : Value → Bool
  | .null => false
  | .str s => !(s.toList.all isTrimBlank)
  | .arr es => !es.isEmpty
  | _ => true

/-- `integer`: `filter_var($value, FILTER_VALIDATE_INT) !== false`. -/
def passesInteger (R : Rules) (v : Value) : Bool :=
  match v.toText R.floatToString with
  -- the value is cast to a string first, so `true` passes and `1.0` does as `1`
  | .ok s => (filterInt s).isSome
  | .error _ => false

/-- The size `min` and `max` compare: the elements of an array, the characters of a text. -/
def size (R : Rules) (v : Value) : Nat :=
  match v with
  | .arr es => es.length
  | v =>
    match v.toText R.floatToString with
    | .ok s => s.length
    | .error _ => 0

/-- `v` passes one rule of an attribute that carries `rules`.  `min` compares numbers on an
attribute that is also `numeric` or `integer`. -/
def passes (R : Rules) (rules : List Rule) (v : Value) : Rule → Bool
  | .required => passesRequired v
  | .string => match v with | .str _ => true | _ => false
  | .email => match v with | .str s => R.validEmail s | _ => false
  | .integer => passesInteger R v
  | .numeric => isNumeric v
  | .array => match v with | .arr _ => true | _ => false
  | .max n => size R v ≤ n
  | .min n =>
    -- `getSize`: the number itself only where the attribute has a numeric rule
    if isNumeric v && (rules.contains .numeric || rules.contains .integer) then
      R.numberAtLeast v n
    else n ≤ size R v
  | .oneOf allowed =>
    match v.toText R.floatToString with
    | .ok s => allowed.contains s
    | .error _ => false
  | .uniqueUsers => !R.emailTaken v

/-- The attributes a rule line stands for on a given input, with their values; a missing value is
`null`. -/
def expand (input : Value) : Attribute → List (String × Value)
  | .key k => [(k, input.getD k .null)]
  | .each k =>
    match input.getD k .null with
    | .arr es => es.map fun e => (k ++ "." ++ e.1, e.2)
    -- nothing to expand; the line of the list itself has failed then
    | _ => []
  | .eachKey k sub =>
    match input.getD k .null with
    | .arr es => es.map fun e => (k ++ "." ++ e.1 ++ "." ++ sub, e.2.getD sub .null)
    | _ => []

/-- `$validator->errors()->first()`, or `none` when `$validator->fails()` is false. -/
def firstError (R : Rules) (input : Value) (lines : List (Attribute × List Rule)) :
    Option String :=
  lines.findSome? fun line =>
    (expand input line.1).findSome? fun field =>
      (line.2.find? fun rule => !passes R line.2 field.2 rule).map fun rule =>
        R.message field.1 rule

/-- `!$validator->fails()`. -/
def accepts (R : Rules) (input : Value) (lines : List (Attribute × List Rule)) : Bool :=
  (firstError R input lines).isNone

/-! ### What an accepted input satisfies -/

variable {R : Rules} {input : Value} {lines : List (Attribute × List Rule)}

/-- An input is accepted exactly when every rule of every line passes on every attribute the line
stands for. -/
theorem accepts_iff : accepts R input lines = true ↔
    ∀ line ∈ lines, ∀ field ∈ expand input line.1, ∀ rule ∈ line.2,
      passes R line.2 field.2 rule = true := by
  unfold accepts firstError
  rw [Option.isNone_iff_eq_none, List.findSome?_eq_none_iff]
  simp only [List.findSome?_eq_none_iff, Option.map_eq_none_iff, List.find?_eq_none,
    Bool.not_eq_true', Bool.not_eq_false]

/-- The rules of a plain attribute, on an accepted input. -/
theorem passes_of_accepts (h : accepts R input lines = true) {k : String} {rules : List Rule}
    (hline : (Attribute.key k, rules) ∈ lines) {rule : Rule} (hrule : rule ∈ rules) :
    passes R rules (input.getD k .null) rule = true :=
  accepts_iff.mp h _ hline (k, input.getD k .null) (List.mem_singleton.mpr rfl) rule hrule

/-- An accepted attribute that has to be a string is one. -/
theorem eq_str_of_accepts (h : accepts R input lines = true) {k : String} (rules : List Rule)
    (hline : (Attribute.key k, rules) ∈ lines) (hstring : .string ∈ rules) :
    ∃ t, input.getD k .null = .str t := by
  have hpass := passes_of_accepts h hline hstring
  cases hv : input.getD k .null with
  | str t => exact ⟨t, rfl⟩
  | null | bool b | int n | float bits | arr es => simp [hv, passes] at hpass

/-! ### What an integer looks like -/

/-- Trimming removes nothing but what it is asked to. -/
theorem mem_trimBy_or {p : Char → Bool} {c : Char} {cs : List Char} (h : c ∈ cs) :
    p c = true ∨ c ∈ trimBy p cs := by
  -- one end at a time
  have hdrop : ∀ {ds : List Char}, c ∈ ds → p c = true ∨ c ∈ ds.dropWhile p := by
    intro ds hmem
    rw [← List.takeWhile_append_dropWhile (p := p) (l := ds), List.mem_append] at hmem
    exact hmem.imp_left (List.all_eq_true.mp List.all_takeWhile c)
  rcases hdrop h with hp | hmem
  · exact .inl hp
  · rcases hdrop (List.mem_reverse.mpr hmem) with hp | hmem'
    · exact .inl hp
    · exact .inr (List.mem_reverse.mpr hmem')

theorem isDigit_of_filterDigits {cs : List Char} {n : Nat} (h : filterDigits cs = some n) :
    ∀ c ∈ cs, c.isDigit = true := by
  unfold filterDigits at h
  split at h
  · next hzero =>
    rw [hzero]
    simp
  · split at h
    · next hdigits =>
      simp only [Bool.and_eq_true] at hdigits
      exact List.all_eq_true.mp hdigits.1.2
    · cases h

/-- What `FILTER_VALIDATE_INT` takes consists of blanks, signs and digits. -/
theorem chars_of_filterInt {s : String} {n : Int} (h : filterInt s = some n) :
    ∀ c ∈ s.toList, isFilterBlank c = true ∨ c = '-' ∨ c = '+' ∨ c.isDigit = true := by
  intro c hc
  refine (mem_trimBy_or hc).imp_right fun htrim => ?_
  -- in all three branches digits follow
  have hdigits : ∀ {cs : List Char} {m : Option Int} {f : Nat → Option Int},
      (match filterDigits cs with
        | some n => f n
        | none => none) = m → m.isSome = true → ∀ d ∈ cs, d.isDigit = true := by
    intro cs m f hm hsome
    cases hf : filterDigits cs with
    | none =>
      rw [hf] at hm
      rw [← hm] at hsome
      cases hsome
    | some k => exact isDigit_of_filterDigits hf
  unfold filterInt at h
  split at h
  · next cs hcs =>
    rw [hcs, List.mem_cons] at htrim
    rcases htrim with hsign | hmem
    · exact .inl hsign
    · exact .inr (.inr (hdigits h rfl c hmem))
  · next cs hcs =>
    rw [hcs, List.mem_cons] at htrim
    rcases htrim with hsign | hmem
    · exact .inr (.inl hsign)
    · exact .inr (.inr (hdigits h rfl c hmem))
  · next cs _ _ => exact .inr (.inr (hdigits h rfl c htrim))

end Artha.Laravel
