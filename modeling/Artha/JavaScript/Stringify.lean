import Artha.JavaScript.JsonText

/-!
# `JSON.stringify`

The text of an object without nested values, as a record of a table is one.  `Written k s` says how
such a text is built: escapes are complete and stand for no mark, and the `k` marks are written as
they are (`written_stringify`).
-/

namespace Artha.JavaScript

open Binary64

/-- The texts of the finite numbers, of which the language leaves the last digit open. -/
structure NumberTexts where
  text : ℚ → JsString
  ne_nil : ∀ v, text v ≠ []
  units : ∀ v, ∀ c ∈ text v, isDigit 10 c = true ∨ c = 43 ∨ c = 45 ∨ c = 46 ∨ c = 101

/-- `x + ""`. -/
def NumberTexts.numberText (texts : NumberTexts) : Number → JsString
  | .nan => [78, 97, 78]
  | .infinity negative => if negative then 45 :: infinityText else infinityText
  | .finite v => texts.text v

theorem isDigit_of_isDigit {d : Char} (hd : d.isDigit = true) :
    isDigit 10 (.ofNat d.toNat) = true := by
  have hall : ∀ n : Fin 10, isDigit 10 (.ofNat (48 + n)) = true := by decide
  obtain ⟨hlow, hhigh⟩ : 48 ≤ d.toNat ∧ d.toNat ≤ 57 := by
    simpa [Char.isDigit, UInt32.le_iff_toNat_le] using hd
  have heq : d.toNat = 48 + (d.toNat - 48) := by omega
  rw [heq]
  exact hall ⟨d.toNat - 48, by omega⟩

/-- Texts that are right for the integers below `10 ^ 21`, which are written with all their
digits. -/
def NumberTexts.integers : NumberTexts where
  text v := (if v < 0 then [45] else []) ++
    (Nat.toDigits 10 v.num.natAbs).map fun d => .ofNat d.toNat
  ne_nil := by
    intro v
    simp [Nat.toDigits_ne_nil]
  units := by
    intro v c hc
    rcases List.mem_append.mp hc with hc | hc
    · split_ifs at hc
      · simp at hc
        simp [hc]
      · simp at hc
    · left
      obtain ⟨d, hd, rfl⟩ := List.mem_map.mp hc
      exact isDigit_of_isDigit (Nat.isDigit_of_mem_toDigits (by omega) (by omega) hd)

/-- A value without parts. -/
inductive Scalar where
  | null
  | bool (b : Bool)
  | number (x : Number)
  | string (s : JsString)

def Scalar.toJson : Scalar → Json
  | .null => .null
  | .bool b => .bool b
  | .number x => .number x
  | .string s => .string s

namespace Json

/-! ### Strings -/

def hexUnit (d : Nat) : UInt16 := if d < 10 then .ofNat (48 + d) else .ofNat (87 + d)

/-- A code unit as four hexadecimal digits. -/
def hexUnits (c : UInt16) : JsString :=
  [hexUnit (c.toNat / 4096), hexUnit (c.toNat / 256 % 16), hexUnit (c.toNat / 16 % 16),
    hexUnit (c.toNat % 16)]

def isHigh (c : UInt16) : Bool := 0xD800 ≤ c && c ≤ 0xDBFF

def isLow (c : UInt16) : Bool := 0xDC00 ≤ c && c ≤ 0xDFFF

/-- A code unit that is not part of a pair. -/
def quoteUnit (c : UInt16) : JsString :=
  if c = 8 then [92, 98]
  else if c = 9 then [92, 116]
  else if c = 10 then [92, 110]
  else if c = 12 then [92, 102]
  else if c = 13 then [92, 114]
  else if c = 34 then [92, 34]
  else if c = 92 then [92, 92]
  else if c < 32 ∨ isHigh c ∨ isLow c then 92 :: 117 :: hexUnits c
  else [c]

/-- The text between the quotes; the first unit may be the second one of a pair. -/
def quoteFrom : Bool → JsString → JsString
  | _, [] => []
  | true, c :: s => c :: quoteFrom false s
  | false, c :: s =>
    if isHigh c && s.head?.any isLow then c :: quoteFrom true s
    else quoteUnit c ++ quoteFrom false s

def quote (s : JsString) : JsString := 34 :: (quoteFrom false s ++ [34])

/-! ### Objects -/

section Stringify

variable (texts : NumberTexts)

def scalarText : Scalar → JsString
  | .null => [110, 117, 108, 108]
  | .bool true => [116, 114, 117, 101]
  | .bool false => [102, 97, 108, 115, 101]
  | .number (.finite v) => texts.text v
  | .number _ => [110, 117, 108, 108]
  | .string s => quote s

def memberText (field : JsString × Scalar) : JsString :=
  quote field.1 ++ 58 :: scalarText texts field.2

def membersText : List (JsString × Scalar) → JsString
  | [] => []
  | [field] => memberText texts field
  | field :: fields => memberText texts field ++ 44 :: membersText fields

/-- `JSON.stringify` of an object with these fields. -/
def stringify (fields : List (JsString × Scalar)) : JsString :=
  123 :: (membersText texts fields ++ [125])

end Stringify

/-! ### The conversion to a text -/

/-- `[object Object]`. -/
def objectText : JsString := [91, 111, 98, 106, 101, 99, 116, 32, 79, 98, 106, 101, 99, 116, 93]

section Text

variable (texts : NumberTexts)

mutual

/-- An element in the text of an array; `null` is left out. -/
def elementText : Json → JsString
  | .null => []
  | .bool b => scalarText texts (.bool b)
  | .number x => texts.numberText x
  | .string s => s
  | .array elements => elementsText elements
  | .object _ => objectText

def elementsText : List Json → JsString
  | [] => []
  | [v] => elementText v
  | v :: elements => elementText v ++ 44 :: elementsText elements

end

/-- `String(v)`; none is a `TypeError`. -/
def toText (v : Json) : Option JsString :=
  if v.textThrows then none
  else
    match v with
    | .null => some (scalarText texts .null)
    | v => some (elementText texts v)

end Text

/-! ### How a text is written -/

/-- A text with complete escapes, which stand for no mark, and with `k` marks. -/
inductive Written : Nat → JsString → Prop where
  | nil : Written 0 []
  | neutral {k : Nat} {c : UInt16} {s : JsString} (hc : Neutral c) (h : Written k s) :
      Written k (c :: s)
  | mark {k : Nat} {c : UInt16} {s : JsString} (hc : isMark c = true) (h : Written k s) :
      Written (k + 1) (c :: s)
  | escape {k : Nat} {x : UInt16} {s : JsString} (hcode : x ≠ 117) (hmark : isMark x = false)
      (h : Written k s) : Written k (92 :: x :: s)
  | code {k : Nat} {digits s : JsString} (hlength : digits.length = 4)
      (hdigits : digits.all (isDigit 16)) (hmark : isMark (.ofNat (ofDigits 16 digits)) = false)
      (h : Written k s) : Written k (92 :: 117 :: (digits ++ s))

namespace Written

variable {k l : Nat} {s t : JsString}

theorem append (h : Written k s) (h' : Written l t) : Written (k + l) (s ++ t) := by
  induction h with
  | nil =>
    rw [Nat.zero_add]
    exact h'
  | neutral hc _ ih => exact .neutral hc ih
  | mark hc _ ih =>
    rw [Nat.add_right_comm]
    exact .mark hc ih
  | escape hcode hmark _ ih => exact .escape hcode hmark ih
  | code hlength hdigits hmark _ ih =>
    rw [List.cons_append, List.cons_append, List.append_assoc]
    exact .code hlength hdigits hmark ih

theorem of_neutral (hs : ∀ c ∈ s, Neutral c) : Written 0 s := by
  induction s with
  | nil => exact .nil
  | cons c s ih => exact .neutral (hs c List.mem_cons_self) (ih fun d hd => hs d (by simp [hd]))

end Written

/-! ### The text of an object is written so -/

theorem digitValue_hexUnit {d : Nat} (hd : d < 16) : digitValue (hexUnit d) = some d := by
  have hall : ∀ d : Fin 16, digitValue (hexUnit d) = some d.val := by decide
  exact hall ⟨d, hd⟩

theorem isDigit_hexUnit {d : Nat} (hd : d < 16) : isDigit 16 (hexUnit d) = true := by
  rw [isDigit, digitValue_hexUnit hd]
  simpa using hd

theorem all_isDigit_hexUnits (c : UInt16) : (hexUnits c).all (isDigit 16) = true := by
  have hlt := c.toNat_lt
  simp only [hexUnits, List.all_cons, List.all_nil, Bool.and_true, Bool.and_eq_true]
  exact ⟨isDigit_hexUnit (by omega), isDigit_hexUnit (by omega), isDigit_hexUnit (by omega),
    isDigit_hexUnit (by omega)⟩

theorem ofDigits_hexUnits (c : UInt16) : ofDigits 16 (hexUnits c) = c.toNat := by
  have hlt := c.toNat_lt
  have hdigits : ∀ d, d < 16 → (digitValue (hexUnit d)).getD 0 = d := by
    intro d hd
    rw [digitValue_hexUnit hd]
    rfl
  simp only [ofDigits, hexUnits, List.foldl_cons, List.foldl_nil]
  rw [hdigits _ (by omega), hdigits _ (by omega), hdigits _ (by omega), hdigits _ (by omega)]
  omega

/-- One of the half pairs. -/
theorem neutral_of_isHigh {c : UInt16} (hc : isHigh c = true) : Neutral c :=
  neutral_of_apply hc rfl rfl rfl

theorem neutral_of_isLow {c : UInt16} (hc : isLow c = true) : Neutral c :=
  neutral_of_apply hc rfl rfl rfl

theorem written_quoteUnit_of_not_isMark {c : UInt16} (hmark : isMark c = false) :
    Written 0 (quoteUnit c) := by
  have hletter : ∀ x : UInt16, x ≠ 117 → isMark x = false → Written 0 [92, x] := by
    intro x hcode hx
    exact .escape hcode hx .nil
  unfold quoteUnit
  split_ifs with _ _ _ _ _ _ hescape hcode
  · exact hletter 98 (by decide) rfl
  · exact hletter 116 (by decide) rfl
  · exact hletter 110 (by decide) rfl
  · exact hletter 102 (by decide) rfl
  · exact hletter 114 (by decide) rfl
  · exact hletter 34 (by decide) rfl
  · exact hletter 92 (by decide) rfl
  · have hwritten : Written 0 (92 :: 117 :: (hexUnits c ++ [])) := by
      refine .code rfl (all_isDigit_hexUnits c) ?_ .nil
      rw [ofDigits_hexUnits, UInt16.ofNat_toNat]
      exact hmark
    rw [List.append_nil] at hwritten
    exact hwritten
  · exact .neutral ⟨hescape, hmark⟩ .nil

theorem quoteUnit_of_isMark {c : UInt16} (hmark : isMark c = true) : quoteUnit c = [c] := by
  have hcases : c = 38 ∨ c = 39 := by simpa [isMark] using hmark
  rcases hcases with rfl | rfl <;> rfl

theorem written_quoteUnit (c : UInt16) : Written (if isMark c then 1 else 0) (quoteUnit c) := by
  split_ifs with hmark
  · rw [quoteUnit_of_isMark hmark]
    exact .mark hmark .nil
  · exact written_quoteUnit_of_not_isMark (by simpa using hmark)

theorem written_quoteFrom {paired : Bool} {s : JsString}
    (hpaired : paired = true → s.head?.any isLow = true) :
    Written (s.countP isMark) (quoteFrom paired s) := by
  induction s generalizing paired with
  | nil => cases paired <;> exact .nil
  | cons c s ih =>
    cases paired with
    | true =>
      have hlow : isLow c = true := hpaired rfl
      rw [quoteFrom, List.countP_cons_of_neg (by simp [(neutral_of_isLow hlow).2])]
      exact .neutral (neutral_of_isLow hlow) (ih (by simp))
    | false =>
      rw [quoteFrom]
      split_ifs with hpair
      · obtain ⟨hhigh, hlow⟩ := Bool.and_eq_true_iff.mp hpair
        rw [List.countP_cons_of_neg (by simp [(neutral_of_isHigh hhigh).2])]
        exact .neutral (neutral_of_isHigh hhigh) (ih fun _ => hlow)
      · rw [List.countP_cons, Nat.add_comm]
        exact (written_quoteUnit c).append (ih (by simp))

theorem written_quote (s : JsString) : Written (s.countP isMark) (quote s) :=
  .neutral ⟨by decide, rfl⟩
    ((written_quoteFrom (by simp)).append (.neutral ⟨by decide, rfl⟩ .nil))

theorem written_scalarText (texts : NumberTexts) (v : Scalar) :
    Written (stringMarks v.toJson) (scalarText texts v) := by
  have hword : ∀ w : JsString, w.all (fun c => 97 ≤ c) = true → Written 0 w := by
    intro w hw
    refine .of_neutral ?_
    intro c hc
    exact neutral_of_apply (p := fun c => 97 ≤ c) (List.all_eq_true.mp hw c hc) rfl rfl rfl
  obtain _ | b | x | s := v
  · exact hword _ rfl
  · cases b <;> exact hword _ rfl
  · obtain _ | negative | v := x
    · exact hword _ rfl
    · exact hword _ rfl
    · refine .of_neutral ?_
      intro c hc
      rcases texts.units v c hc with hdigit | rfl | rfl | rfl | rfl
      · exact neutral_of_isDigit hdigit
      all_goals exact ⟨by decide, rfl⟩
  · exact written_quote s

theorem written_memberText (texts : NumberTexts) (field : JsString × Scalar) :
    Written (fieldMarks (field.1, field.2.toJson)) (memberText texts field) :=
  (written_quote field.1).append
    (.neutral ⟨by decide, rfl⟩ (written_scalarText texts field.2))

theorem written_membersText (texts : NumberTexts) (fields : List (JsString × Scalar)) :
    Written (total fieldMarks (fields.map fun field => (field.1, field.2.toJson)))
      (membersText texts fields) := by
  induction fields with
  | nil => exact .nil
  | cons field fields ih =>
    cases fields with
    | nil => exact written_memberText texts field
    | cons field' fields =>
      exact (written_memberText texts field).append (.neutral ⟨by decide, rfl⟩ ih)

theorem written_stringify (texts : NumberTexts) (fields : List (JsString × Scalar)) :
    Written (total fieldMarks (fields.map fun field => (field.1, field.2.toJson)))
      (stringify texts fields) :=
  .neutral ⟨by decide, rfl⟩
    ((written_membersText texts fields).append (.neutral ⟨by decide, rfl⟩ .nil))

end Json

end Artha.JavaScript
