import Mathlib.Tactic.Basic

/-!
# PHP values

`Value` is what `json_decode(..., true)` produces and what the session stores: `null`, booleans,
integers, doubles, strings and arrays.  An array is its list of entries in insertion order; an
integer key is represented by its decimal string, which loses nothing because PHP itself turns a
decimal string key into that integer.

A string that came out of `json_decode` is valid UTF-8 and is a Lean `String`.  The body of an HTTP
response need not be, so the texts that may carry one (`Text`) have a second constructor for the
byte strings that are not UTF-8; `json_encode` refuses those.

The two families of PHP throwables matter because `catch (\Exception $e)` sees only one of them:
a `Throwable.exception` is an `\Exception` (a warning, which Laravel turns into an
`ErrorException`, included), a `Throwable.error` an `\Error` (`TypeError`, `ValueError`).
-/

namespace Artha.Php

/-- A PHP value.  A double is its IEEE-754 bit pattern. -/
inductive Value where
  | null
  | bool (b : Bool)
  | int (n : Int)
  | float (bits : UInt64)
  | str (s : String)
  | arr (es : List (String × Value))
deriving Repr

/-- A PHP string that may hold the raw body of an HTTP response. -/
inductive Text where
  /-- A valid UTF-8 string. -/
  | utf8 (s : String)
  /-- Bytes that are not valid UTF-8. -/
  | bytes (b : ByteArray) (h : b.validateUTF8 = false)

/-- A thrown object with its message. -/
inductive Throwable where
  /-- An `\Exception`: caught by `catch (\Exception $e)`. -/
  | exception (message : Text)
  /-- An `\Error`: not caught by `catch (\Exception $e)`. -/
  | error (message : String)

/-- An `ErrorException`, `InvalidArgumentException`, ... with a message of the program's own. -/
def Throwable.ofMessage (message : String) : Throwable := .exception (.utf8 message)

namespace Value

/-! ### Decidable equality

`deriving` does not go through the list of entries, so the two recursions are written out. -/

mutual

/-- Equality of values (`===`) is decidable. -/
def decEq : (a b : Value) → Decidable (a = b)
  | .null, .null => isTrue rfl
  | .bool a, .bool b => decidable_of_iff (a = b) (by simp)
  | .int a, .int b => decidable_of_iff (a = b) (by simp)
  | .float a, .float b => decidable_of_iff (a = b) (by simp)
  | .str a, .str b => decidable_of_iff (a = b) (by simp)
  | .arr a, .arr b => @decidable_of_iff _ (a = b) (by simp) (decEqEntries a b)
  | .null, .bool _ | .null, .int _ | .null, .float _ | .null, .str _ | .null, .arr _
  | .bool _, .null | .bool _, .int _ | .bool _, .float _ | .bool _, .str _ | .bool _, .arr _
  | .int _, .null | .int _, .bool _ | .int _, .float _ | .int _, .str _ | .int _, .arr _
  | .float _, .null | .float _, .bool _ | .float _, .int _ | .float _, .str _ | .float _, .arr _
  | .str _, .null | .str _, .bool _ | .str _, .int _ | .str _, .float _ | .str _, .arr _
  | .arr _, .null | .arr _, .bool _ | .arr _, .int _ | .arr _, .float _ | .arr _, .str _ =>
    isFalse nofun

/-- Equality of lists of entries is decidable. -/
def decEqEntries : (a b : List (String × Value)) → Decidable (a = b)
  | [], [] => isTrue rfl
  | [], _ :: _ => isFalse nofun
  | _ :: _, [] => isFalse nofun
  | (k, v) :: a, (k', v') :: b =>
    @decidable_of_iff _ (k = k' ∧ v = v' ∧ a = b) (by simp [and_assoc])
      (@instDecidableAnd _ _ (inferInstanceAs (Decidable (k = k')))
        (@instDecidableAnd _ _ (decEq v v') (decEqEntries a b)))

end

instance : DecidableEq Value := decEq

/-! ### Reading an array -/

/-- The entry of an array under `key`; `none` on anything that is not an array. -/
def get? : Value → String → Option Value
  | .arr es, key => es.lookup key
  | _, _ => none

/-- `$v['key'] ?? $default`: the entry unless it is missing or `null`.  Never raises, whatever
`$v` is. -/
def getD (v : Value) (key : String) (default : Value) : Value :=
  match v.get? key with
  -- `??` does not tell a stored `null` from a missing key
  | none | some .null => default
  | some x => x

/-- `isset($v['key'])`. -/
def isSet (v : Value) (key : String) : Bool :=
  match v.get? key with
  | none | some .null => false
  | some _ => true

theorem getD_ne_null_of_isSet {v : Value} {key : String} (h : v.isSet key = true) :
    v.getD key .null ≠ .null := by
  unfold isSet at h
  unfold getD
  split at h
  · cases h
  · cases h
  · next x hne hx => exact hne

/-- An entry that is there and not `null` is what `??` and `isset` see. -/
theorem getD_of_get? {v x : Value} {key : String} (h : v.get? key = some x) (hx : x ≠ .null)
    (default : Value) : v.getD key default = x ∧ v.isSet key = true := by
  unfold getD isSet
  rw [h]
  cases x with
  | null => exact absurd rfl hx
  | bool b | int n | float bits | str s | arr es => exact ⟨rfl, rfl⟩

/-- The type name `zend_zval_type_name` prints. -/
def typeName : Value → String
  | .null => "null"
  | .bool _ => "bool"
  | .int _ => "int"
  | .float _ => "float"
  | .str _ => "string"
  | .arr _ => "array"

/-- `$v['key']` for a key that is not numeric.  A missing key and an offset into a scalar are
warnings; an offset into a string is a `TypeError`. -/
def read (v : Value) (key : String) : Except Throwable Value :=
  match v with
  | .arr es =>
    match es.lookup key with
    | some x => .ok x
    | none => .error (.ofMessage ("Undefined array key \"" ++ key ++ "\""))
  | .str _ => .error (.error "Cannot access offset of type string on string")
  | _ => .error (.ofMessage ("Trying to access array offset on value of type " ++ v.typeName))

/-! ### Lists -/

/-- The entries of a list whose first key is `n`. -/
def entriesFrom : Nat → List Value → List (String × Value)
  | _, [] => []
  | n, v :: vs => (toString n, v) :: entriesFrom (n + 1) vs

/-- `[v, ...]`: the array with the keys `0`, `1`, ... in this order. -/
def ofList (vs : List Value) : Value := .arr (entriesFrom 0 vs)

/-- The elements of an array that `array_is_list`. -/
def asList? : Value → Option (List Value)
  | .arr es => if es = entriesFrom 0 (es.map Prod.snd) then some (es.map Prod.snd) else none
  | _ => none

theorem map_snd_entriesFrom (n : Nat) (vs : List Value) :
    (entriesFrom n vs).map Prod.snd = vs := by
  induction vs generalizing n with
  | nil => rfl
  | cons v vs ih => rw [entriesFrom, List.map_cons, ih]

/-- A list is read back. -/
theorem asList?_ofList (vs : List Value) : (ofList vs).asList? = some vs := by
  rw [ofList, asList?, map_snd_entriesFrom, if_pos rfl]

/-! ### Conversions -/

/-- A double is zero (of either sign). -/
def floatIsZero (bits : UInt64) : Bool := bits <<< 1 == 0

/-- A double is neither infinite nor NaN. -/
def floatIsFinite (bits : UInt64) : Bool := (bits >>> 52) &&& 0x7FF != 0x7FF

/-- The boolean a value converts to. -/
def truthy : Value → Bool
  | .null => false
  | .bool b => b
  | .int n => n != 0
  | .float bits => !floatIsZero bits
  | .str s => s != "" && s != "0"
  | .arr es => !es.isEmpty

/-- The string a value becomes under `.` concatenation.  `fmt` formats doubles. -/
def toText (fmt : UInt64 → String) : Value → Except Throwable String
  | .null => .ok ""
  | .bool b => .ok (if b then "1" else "")
  | .int n => .ok (toString n)
  | .float bits => .ok (fmt bits)
  | .str s => .ok s
  -- a warning in PHP, raised as an `ErrorException` by the framework's error handler
  | .arr _ => .error (.ofMessage "Array to string conversion")

/-- A value passed to a built-in parameter of type `string` in weak mode: scalars are converted,
an array is a `TypeError`. -/
def toStringParam (fmt : UInt64 → String) (v : Value) : Except Throwable String :=
  match v with
  | .arr _ => .error (.error "must be of type string, array given")
  | v => v.toText fmt

/-- `$v == 'literal'` for a literal that is not numeric.  A boolean is compared with the
literal's truth value, a number with the literal as text, and an array is never equal. -/
def looseEq (fmt : UInt64 → String) (v : Value) (literal : String) : Bool :=
  match v with
  | .null => literal == ""
  -- `true == 'capture'` holds
  | .bool b => b == (Value.str literal).truthy
  | .int n => toString n == literal
  | .float bits => fmt bits == literal
  | .str s => s == literal
  | .arr _ => false

/-! ### `json_encode` -/

mutual

/-- Nesting depth of arrays, as `json_encode` counts it. -/
def depth : Value → Nat
  | .arr es => 1 + depthEntries es
  | _ => 0

/-- The deepest of the entries. -/
def depthEntries : List (String × Value) → Nat
  | [] => 0
  | (_, v) :: es => max (depth v) (depthEntries es)

end

mutual

/-- Every double in the value is finite. -/
def allFinite : Value → Bool
  | .float bits => floatIsFinite bits
  | .arr es => allFiniteEntries es
  | _ => true

/-- Every double in the entries is finite. -/
def allFiniteEntries : List (String × Value) → Bool
  | [] => true
  | (_, v) :: es => allFinite v && allFiniteEntries es

end

/-- `json_encode` succeeds: no `INF` or `NAN`, and at most 512 levels. -/
def encodable (v : Value) : Bool := v.allFinite && v.depth ≤ 512

/-- `v` can be encoded as a part of a value, with `levels` arrays around it. -/
def encodableAt (levels : Nat) (v : Value) : Bool := v.allFinite && levels + v.depth ≤ 512

theorem encodable_iff {v : Value} : v.encodable = true ↔ v.encodableAt 0 = true := by
  rw [encodable, encodableAt, Nat.zero_add]

theorem allFiniteEntries_iff {es : List (String × Value)} :
    allFiniteEntries es = true ↔ ∀ e ∈ es, e.2.allFinite = true := by
  induction es with
  | nil => simp [allFiniteEntries]
  | cons e es ih => rw [allFiniteEntries, Bool.and_eq_true, ih, List.forall_mem_cons]

theorem depthEntries_le_iff {es : List (String × Value)} {n : Nat} :
    depthEntries es ≤ n ↔ ∀ e ∈ es, e.2.depth ≤ n := by
  induction es with
  | nil => simp [depthEntries]
  | cons e es ih => rw [depthEntries, Nat.max_le, ih, List.forall_mem_cons]

theorem encodableAt_iff {levels : Nat} {v : Value} :
    v.encodableAt levels = true ↔ v.allFinite = true ∧ levels + v.depth ≤ 512 := by
  rw [encodableAt, Bool.and_eq_true, decide_eq_true_eq]

/-- An array can be encoded if its entries can, one level further down. -/
theorem encodableAt_arr {levels : Nat} {es : List (String × Value)} :
    (arr es).encodableAt levels = true ↔
      levels < 512 ∧ ∀ e ∈ es, e.2.encodableAt (levels + 1) = true := by
  have hdepth : levels + (1 + depthEntries es) ≤ 512 ↔
      levels < 512 ∧ ∀ e ∈ es, levels + 1 + e.2.depth ≤ 512 := by
    constructor
    · intro h
      have hentries := depthEntries_le_iff.mp (show depthEntries es ≤ 511 - levels by omega)
      refine ⟨by omega, fun e he => ?_⟩
      have hle := hentries e he
      omega
    · rintro ⟨hlt, hentries⟩
      have hle : depthEntries es ≤ 511 - levels := by
        rw [depthEntries_le_iff]
        intro e he
        have h := hentries e he
        omega
      omega
  rw [encodableAt_iff, allFinite, depth, allFiniteEntries_iff, hdepth]
  simp only [encodableAt_iff]
  constructor
  · rintro ⟨hfinite, hlt, hentries⟩
    exact ⟨hlt, fun e he => ⟨hfinite e he, hentries e he⟩⟩
  · rintro ⟨hlt, h⟩
    exact ⟨fun e he => (h e he).1, hlt, fun e he => (h e he).2⟩

/-- A string can be encoded anywhere. -/
theorem encodableAt_str {levels : Nat} {s : String} :
    (str s).encodableAt levels = true ↔ levels ≤ 512 := by
  simp [encodableAt_iff, allFinite, depth]

/-- An array of strings can be encoded. -/
theorem encodable_of_str {es : List (String × Value)} (h : ∀ e ∈ es, ∃ t, e.2 = .str t) :
    (Value.arr es).encodable = true := by
  rw [encodable_iff, encodableAt_arr]
  refine ⟨by omega, fun e he => ?_⟩
  obtain ⟨t, ht⟩ := h e he
  rw [ht, encodableAt_str]
  omega

/-- The message of `json_last_error_msg` for a value that is not `encodable`. -/
def encodeError (v : Value) : String :=
  if v.allFinite then "Maximum stack depth exceeded" else "Inf and NaN cannot be JSON encoded"

end Value

/-! ### Strings -/

/-- `strtolower`: ASCII letters only, as in PHP 8.2. -/
def strtolower (s : String) : String := String.ofList (s.toList.map Char.toLower)

theorem toLower_of_not_isUpper {c : Char} (h : c.isUpper = false) : c.toLower = c := by
  have hrange : ¬ (c.val ≥ 'A'.val ∧ c.val ≤ 'Z'.val) := of_decide_eq_false h
  exact dif_neg hrange

theorem isUpper_toLower (c : Char) : c.toLower.isUpper = false := by
  cases h : c.isUpper with
  | false => rwa [toLower_of_not_isUpper h]
  | true =>
    have hrange : c.val ≥ 'A'.val ∧ c.val ≤ 'Z'.val := of_decide_eq_true h
    have hval : c.toLower.val = c.val + 32 := congrArg Char.val (dif_pos hrange)
    -- the small letters come after the last capital
    have hlower : ¬ c.toLower.val ≤ 'Z'.val := by
      have hA : 'A'.val.toNat = 65 := rfl
      have hZ : 'Z'.val.toNat = 90 := rfl
      have h32 : UInt32.toNat 32 = 32 := rfl
      rw [hval]
      simp only [ge_iff_le, UInt32.le_iff_toNat_le, UInt32.toNat_add] at hrange ⊢
      omega
    exact decide_eq_false fun h => hlower h.2

theorem strtolower_strtolower (s : String) : strtolower (strtolower s) = strtolower s := by
  have hchar : Char.toLower ∘ Char.toLower = Char.toLower := by
    funext c
    exact toLower_of_not_isUpper (isUpper_toLower c)
  simp [strtolower, hchar]

/-- `ucfirst`: the first character, if an ASCII letter, in upper case. -/
def ucfirst (s : String) : String :=
  match s.toList with
  | [] => ""
  | c :: cs => String.ofList (c.toUpper :: cs)

/-- `needle` occurs in a list of characters or bytes. -/
def occursIn {α : Type} [BEq α] (needle : List α) : List α → Bool
  | [] => needle.isEmpty
  | c :: cs => needle.isPrefixOf (c :: cs) || occursIn needle cs

/-- `strpos($text, 'needle') !== false`. -/
def Text.contains (t : Text) (needle : String) : Bool :=
  match t with
  | .utf8 s => occursIn needle.toList s.toList
  | .bytes b _ => occursIn needle.toUTF8.data.toList b.data.toList

end Artha.Php
