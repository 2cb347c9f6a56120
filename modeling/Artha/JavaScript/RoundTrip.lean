import Mathlib.Tactic.Tauto
import Artha.JavaScript.Stringify

/-!
# `JSON.parse` after `JSON.stringify`

`text` is the text of a value with parts.  An object lists its fields backwards, so that its text
has them in the order in which they are enumerated, and `parse` lists them as they were.  A value is
`Storable` if its numbers are finite and their texts are read back as these numbers: such a value
is what `parse` makes of its text (`parse_text`).
-/

namespace Artha.JavaScript

open Binary64

namespace Json

section Text

variable (texts : NumberTexts)

mutual

/-- `JSON.stringify(v)`. -/
def text : Json → JsString
  | .null => scalarText texts .null
  | .bool b => scalarText texts (.bool b)
  | .number x => scalarText texts (.number x)
  | .string s => scalarText texts (.string s)
  | .array elements => 91 :: (List.intercalate [44] (elementTexts elements) ++ [93])
  | .object fields => 123 :: (List.intercalate [44] (fieldTexts fields).reverse ++ [125])

def elementTexts : List Json → List JsString
  | [] => []
  | v :: elements => text v :: elementTexts elements

def fieldTexts : List (JsString × Json) → List JsString
  | [] => []
  | (key, v) :: fields => (quote key ++ 58 :: text v) :: fieldTexts fields

end

/-- A field of an object. -/
def fieldText (field : JsString × Json) : JsString := quote field.1 ++ 58 :: text texts field.2

theorem elementTexts_eq_map (elements : List Json) :
    elementTexts texts elements = elements.map (text texts) := by
  induction elements with
  | nil => rfl
  | cons v elements ih => rw [elementTexts, ih, List.map_cons]

theorem fieldTexts_eq_map (fields : List (JsString × Json)) :
    fieldTexts texts fields = fields.map (fieldText texts) := by
  induction fields with
  | nil => rfl
  | cons field fields ih => rw [fieldTexts, ih, List.map_cons, fieldText]

end Text

/-! ### Strings -/

theorem parseString_quote (s : JsString) : parseString (34 :: s) = some ([], s) := by
  rw [parseString.eq_def]
  dsimp only
  rw [if_pos rfl]

/-- A unit of a string that stands for itself. -/
theorem parseString_cons {c : UInt16} (hquote : c ≠ 34) (hcontrol : ¬c < 32) (hescape : c ≠ 92)
    (s : JsString) :
    parseString (c :: s) = (parseString s).map fun r => (c :: r.1, r.2) := by
  rw [parseString.eq_def]
  dsimp only
  rw [if_neg hquote, if_neg hcontrol, if_neg hescape]

theorem parseString_escape {x y : UInt16} (hcode : x ≠ 117) (hx : simpleEscape x = some y)
    (s : JsString) :
    parseString (92 :: x :: s) = (parseString s).map fun r => (y :: r.1, r.2) := by
  rw [parseString.eq_def]
  dsimp only
  rw [if_neg (by decide), if_neg (by decide), if_pos rfl, if_neg hcode, hx, Option.bind_some]

theorem parseString_code (c : UInt16) (s : JsString) :
    parseString (92 :: 117 :: (hexUnits c ++ s)) =
      (parseString s).map fun r => (c :: r.1, r.2) := by
  have hdigits := all_isDigit_hexUnits c
  have hvalue := ofDigits_hexUnits c
  rw [hexUnits] at hdigits hvalue
  rw [parseString.eq_def, hexUnits]
  dsimp only [List.cons_append, List.nil_append]
  rw [if_neg (by decide), if_neg (by decide), if_pos rfl, if_pos rfl, if_pos hdigits, hvalue,
    UInt16.ofNat_toNat]

theorem parseString_quoteUnit (c : UInt16) (s : JsString) :
    parseString (quoteUnit c ++ s) = (parseString s).map fun r => (c :: r.1, r.2) := by
  unfold quoteUnit
  split_ifs with hb ht hn hf hr hquote hescape hcode
  · rw [hb]
    exact parseString_escape (x := 98) (by decide) rfl s
  · rw [ht]
    exact parseString_escape (x := 116) (by decide) rfl s
  · rw [hn]
    exact parseString_escape (x := 110) (by decide) rfl s
  · rw [hf]
    exact parseString_escape (x := 102) (by decide) rfl s
  · rw [hr]
    exact parseString_escape (x := 114) (by decide) rfl s
  · rw [hquote]
    exact parseString_escape (x := 34) (by decide) rfl s
  · rw [hescape]
    exact parseString_escape (x := 92) (by decide) rfl s
  · exact parseString_code c s
  · exact parseString_cons hquote (fun hlow => hcode (Or.inl hlow)) hescape s

/-- A half of a pair stands for itself. -/
theorem parseString_cons_of_le {c : UInt16} (hc : 0xD800 ≤ c) (s : JsString) :
    parseString (c :: s) = (parseString s).map fun r => (c :: r.1, r.2) := by
  have hle : 0xD800 ≤ c.toNat := UInt16.le_iff_toNat_le.mp hc
  refine parseString_cons ?_ ?_ ?_ s
  · rintro rfl
    exact absurd hc (by decide)
  · intro hlow
    have hlt : c.toNat < 32 := UInt16.lt_iff_toNat_lt.mp hlow
    omega
  · rintro rfl
    exact absurd hc (by decide)

theorem le_of_isHigh {c : UInt16} (hc : isHigh c = true) : 0xD800 ≤ c := by
  simp only [isHigh, Bool.and_eq_true, decide_eq_true_eq] at hc
  exact hc.1

theorem le_of_isLow {c : UInt16} (hc : isLow c = true) : 0xD800 ≤ c := by
  simp only [isLow, Bool.and_eq_true, decide_eq_true_eq] at hc
  exact UInt16.le_trans (by decide) hc.1

theorem parseString_quoteFrom {paired : Bool} {s : JsString}
    (hpaired : paired = true → s.head?.any isLow = true) (rest : JsString) :
    parseString (quoteFrom paired s ++ 34 :: rest) = some (s, rest) := by
  induction s generalizing paired with
  | nil =>
    rw [quoteFrom, List.nil_append]
    exact parseString_quote rest
  | cons c s ih =>
    cases paired with
    | true =>
      have hlow : isLow c = true := hpaired rfl
      rw [quoteFrom, List.cons_append, parseString_cons_of_le (le_of_isLow hlow), ih (by simp)]
      rfl
    | false =>
      rw [quoteFrom]
      split_ifs with hpair
      · obtain ⟨hhigh, hlow⟩ := Bool.and_eq_true_iff.mp hpair
        rw [List.cons_append, parseString_cons_of_le (le_of_isHigh hhigh), ih fun _ => hlow]
        rfl
      · rw [List.append_assoc, parseString_quoteUnit, ih (by simp)]
        rfl

/-! ### Where a value ends -/

/-- Nothing more follows, or a comma or closing bracket does. -/
def Ends (rest : JsString) : Prop := ∀ c ∈ rest.head?, c = 44 ∨ c = 93 ∨ c = 125

theorem ends_nil : Ends [] := by simp [Ends]

theorem ends_cons {c : UInt16} (hc : c = 44 ∨ c = 93 ∨ c = 125) (rest : JsString) :
    Ends (c :: rest) := by simpa [Ends] using hc

/-- The text of `v` is read back. -/
def ReadsBack (texts : NumberTexts) (v : ℚ) : Prop :=
  ∀ rest, Ends rest → parseNumber (texts.text v ++ rest) = some (.finite v, rest)

theorem skipSpace_cons {c : UInt16} (hc : isSpace c = false) (s : JsString) :
    skipSpace (c :: s) = c :: s := by
  rw [skipSpace, List.dropWhile_cons_of_neg (by simp [hc])]

theorem expect_cons {c : UInt16} (hc : isSpace c = false) (s : JsString) :
    expect c (c :: s) = some s := by
  rw [expect, skipSpace_cons hc, List.head?_cons, if_pos rfl, List.tail_cons]

section Items

variable {α : Type} {item : JsString → Option (α × JsString)} {write : α → JsString}
  {close : UInt16}

/-- Items that are read back one by one are read back with commas between them. -/
theorem parseItems_intercalate (hclose : close = 93 ∨ close = 125) (v : α) (l : List α)
    (hitem : ∀ w ∈ v :: l, ∀ rest, Ends rest → item (write w ++ rest) = some (w, rest))
    {n : Nat} (hn : l.length < n) (rest : JsString) :
    parseItems item close n (List.intercalate [44] ((v :: l).map write) ++ close :: rest) =
      some (v :: l, rest) := by
  have hspace : isSpace close = false := by rcases hclose with rfl | rfl <;> rfl
  have hends : Ends (close :: rest) := ends_cons (by tauto) rest
  induction l generalizing v n with
  | nil =>
    obtain ⟨n, rfl⟩ := Nat.exists_eq_succ_of_ne_zero (Nat.ne_zero_of_lt hn)
    have hv := hitem v (by simp) (close :: rest) hends
    rw [List.map_cons, List.map_nil, List.intercalate_singleton]
    exact parseItems_close hv (skipSpace_cons hspace rest) n
  | cons w l ih =>
    obtain ⟨n, rfl⟩ := Nat.exists_eq_succ_of_ne_zero (Nat.ne_zero_of_lt hn)
    rw [List.length_cons, Nat.succ_lt_succ_iff] at hn
    have htail := ih w (fun u hu => hitem u (List.mem_cons_of_mem v hu)) hn
    have hcomma : close ≠ 44 := by rcases hclose with rfl | rfl <;> decide
    rw [List.map_cons, List.map_cons, List.intercalate_cons_cons, ← List.map_cons,
      List.append_assoc, List.append_assoc, List.singleton_append]
    rw [parseItems_comma hcomma (hitem v (by simp) _ (ends_cons (by simp) _))
      (skipSpace_cons rfl _), htail]
    rfl

theorem parseList_intercalate (hclose : close = 93 ∨ close = 125) (l : List α)
    (hitem : ∀ w ∈ l, ∀ rest, Ends rest → item (write w ++ rest) = some (w, rest))
    (hhead : ∀ w ∈ l, ∃ c s, write w = c :: s ∧ isSpace c = false ∧ c ≠ close)
    {n : Nat} (hn : l.length ≤ n) (rest : JsString) :
    parseList item close n (List.intercalate [44] (l.map write) ++ close :: rest) =
      some (l, rest) := by
  cases l with
  | nil =>
    have hspace : isSpace close = false := by rcases hclose with rfl | rfl <;> rfl
    rw [List.map_nil, List.intercalate_nil, List.nil_append, parseList, skipSpace_cons hspace,
      List.head?_cons, if_pos rfl, List.tail_cons]
  | cons v l =>
    obtain ⟨c, s, hwrite, hspace, hne⟩ := hhead v (by simp)
    have hfirst : ∃ t, List.intercalate [44] ((v :: l).map write) ++ close :: rest = c :: t := by
      cases l with
      | nil =>
        rw [List.map_cons, List.map_nil, List.intercalate_singleton, hwrite]
        exact ⟨_, rfl⟩
      | cons w l =>
        rw [List.map_cons, List.map_cons, List.intercalate_cons_cons, hwrite]
        exact ⟨_, rfl⟩
    have hparse := parseItems_intercalate hclose v l hitem hn rest
    obtain ⟨t, ht⟩ := hfirst
    rw [ht] at hparse ⊢
    rw [parseList, skipSpace_cons hspace, if_neg (by simpa using hne)]
    exact hparse

end Items

/-! ### Values -/

/-- A value whose numbers are finite and are read back. -/
inductive Storable (texts : NumberTexts) : Json → Prop where
  | null : Storable texts .null
  | bool (b : Bool) : Storable texts (.bool b)
  | number {v : ℚ} (h : ReadsBack texts v) : Storable texts (.number (.finite v))
  | string (s : JsString) : Storable texts (.string s)
  | array {elements : List Json} (h : ∀ v ∈ elements, Storable texts v) :
      Storable texts (.array elements)
  | object {fields : List (JsString × Json)} (h : ∀ field ∈ fields, Storable texts field.2) :
      Storable texts (.object fields)

/-- What the text of a number begins with. -/
theorem head_text_number (texts : NumberTexts) (v : ℚ) : ∃ c s, texts.text v = c :: s ∧
    (isDigit 10 c = true ∨ c = 43 ∨ c = 45 ∨ c = 46 ∨ c = 101) := by
  obtain ⟨c, s, hs⟩ := List.exists_cons_of_ne_nil (texts.ne_nil v)
  exact ⟨c, s, hs, texts.units v c (by simp [hs])⟩

/-- A unit that a number can begin with is none of those that select another branch. -/
theorem ne_of_numeral {c d : UInt16}
    (hc : isDigit 10 c = true ∨ c = 43 ∨ c = 45 ∨ c = 46 ∨ c = 101) (hdigit : isDigit 10 d = false)
    (hd : d ≠ 43 ∧ d ≠ 45 ∧ d ≠ 46 ∧ d ≠ 101) : c ≠ d := by
  rintro rfl
  rw [hdigit] at hc
  tauto

theorem isSpace_of_numeral {c : UInt16}
    (hc : isDigit 10 c = true ∨ c = 43 ∨ c = 45 ∨ c = 46 ∨ c = 101) : isSpace c = false := by
  have hne : ∀ d : UInt16, isDigit 10 d = false → d ≠ 43 ∧ d ≠ 45 ∧ d ≠ 46 ∧ d ≠ 101 → c ≠ d :=
    fun d => ne_of_numeral hc
  simp [isSpace, hne 9 rfl (by decide), hne 10 rfl (by decide), hne 13 rfl (by decide),
    hne 32 rfl (by decide)]

section Values

variable {texts : NumberTexts}

/-- No value begins with white space or a closing bracket. -/
theorem Storable.head_text {v : Json} (h : Storable texts v) :
    ∃ c s, text texts v = c :: s ∧ isSpace c = false ∧ c ≠ 93 := by
  cases h with
  | null => exact ⟨110, _, rfl, rfl, by decide⟩
  | bool b =>
    cases b with
    | true => exact ⟨116, _, rfl, rfl, by decide⟩
    | false => exact ⟨102, _, rfl, rfl, by decide⟩
  | @number v =>
    obtain ⟨c, s, hs, hc⟩ := head_text_number texts v
    exact ⟨c, s, hs, isSpace_of_numeral hc, ne_of_numeral hc rfl (by decide)⟩
  | string s => exact ⟨34, _, rfl, rfl, by decide⟩
  | array => exact ⟨91, _, by rw [text], rfl, by decide⟩
  | object => exact ⟨123, _, by rw [text], rfl, by decide⟩

/-- No literal begins as a number does. -/
theorem parseScalar_number {v : ℚ} (h : ReadsBack texts v) {rest : JsString} (hends : Ends rest) :
    parseScalar (texts.text v ++ rest) = some (.number (.finite v), rest) := by
  obtain ⟨c, s, hs, hc⟩ := head_text_number texts v
  have hliteral : literals.find? (fun p => p.1.isPrefixOf (texts.text v ++ rest)) = none := by
    rw [hs]
    have hn : c ≠ 110 := ne_of_numeral hc rfl (by decide)
    have ht : c ≠ 116 := ne_of_numeral hc rfl (by decide)
    have hf : c ≠ 102 := ne_of_numeral hc rfl (by decide)
    simp [literals, List.isPrefixOf, hn.symm, ht.symm, hf.symm]
  rw [parseScalar, hliteral]
  dsimp only
  rw [h rest hends]
  rfl

theorem length_le_of_mem_intercalate {l : List JsString} {w : JsString} (hw : w ∈ l) :
    w.length ≤ (List.intercalate [44] l).length := by
  induction l with
  | nil => cases hw
  | cons u l ih =>
    cases l with
    | nil =>
      obtain rfl := List.mem_singleton.mp hw
      rw [List.intercalate_singleton]
    | cons u' l =>
      rw [List.intercalate_cons_cons, List.length_append, List.length_append]
      rcases List.mem_cons.mp hw with rfl | hw
      · omega
      · have hle := ih hw
        omega

theorem length_le_length_intercalate (l : List JsString) :
    l.length ≤ (List.intercalate [44] l).length + 1 := by
  induction l with
  | nil => exact Nat.zero_le _
  | cons u l ih =>
    cases l with
    | nil =>
      rw [List.length_singleton]
      omega
    | cons u' l =>
      rw [List.intercalate_cons_cons, List.length_append, List.length_append,
        List.length_singleton]
      rw [List.length_cons]
      omega

theorem parseMember_fieldText {value : JsString → Option (Json × JsString)}
    {field : JsString × Json} {rest : JsString}
    (hvalue : value (text texts field.2 ++ rest) = some (field.2, rest)) :
    parseMember value (fieldText texts field ++ rest) = some (field, rest) := by
  obtain ⟨key, v⟩ := field
  rw [fieldText, quote, parseMember]
  simp only [List.cons_append, List.append_assoc, List.nil_append]
  rw [expect_cons rfl]
  simp only [Option.bind_eq_bind, Option.bind_some]
  rw [parseString_quoteFrom (by simp)]
  simp only [Option.bind_some]
  rw [expect_cons rfl]
  simp only [Option.bind_some, hvalue]

/-- Where a value begins with a unit that is no white space, that unit selects how it is read. -/
theorem parseValue_cons {c : UInt16} (hc : isSpace c = false) (fuel : Nat) (s : JsString) :
    parseValue (fuel + 1) (c :: s) =
      if c = 34 then (parseString s).map fun r => (.string r.1, r.2)
      else if c = 91 then (parseList (parseValue fuel) 93 fuel s).map fun r => (.array r.1, r.2)
      else if c = 123 then
        (parseList (parseMember (parseValue fuel)) 125 fuel s).map fun r =>
          (.object r.1.reverse, r.2)
      else parseScalar (c :: s) := by
  rw [parseValue, skipSpace_cons hc]

theorem parseValue_number {v : ℚ} (h : ReadsBack texts v) (fuel : Nat) {rest : JsString}
    (hends : Ends rest) :
    parseValue (fuel + 1) (texts.text v ++ rest) = some (.number (.finite v), rest) := by
  obtain ⟨c, s, hs, hc⟩ := head_text_number texts v
  have hparse := parseScalar_number h hends
  rw [hs, List.cons_append] at hparse ⊢
  rw [parseValue_cons (isSpace_of_numeral hc), if_neg (ne_of_numeral hc rfl (by decide)),
    if_neg (ne_of_numeral hc rfl (by decide)), if_neg (ne_of_numeral hc rfl (by decide))]
  exact hparse

theorem parseValue_array {elements : List Json} (h : ∀ v ∈ elements, Storable texts v) {fuel : Nat}
    (hfuel : elements.length ≤ fuel)
    (hitem : ∀ v ∈ elements, ∀ rest, Ends rest →
      parseValue fuel (text texts v ++ rest) = some (v, rest)) (rest : JsString) :
    parseValue (fuel + 1) (text texts (.array elements) ++ rest) =
      some (.array elements, rest) := by
  have hhead : ∀ v ∈ elements, ∃ c s, text texts v = c :: s ∧ isSpace c = false ∧ c ≠ 93 :=
    fun v hv => (h v hv).head_text
  rw [text, elementTexts_eq_map, List.cons_append, List.append_assoc, parseValue_cons rfl,
    if_neg (by decide), if_pos rfl, List.singleton_append,
    parseList_intercalate (Or.inl rfl) elements hitem hhead hfuel]
  rfl

theorem parseValue_object {fields : List (JsString × Json)} {fuel : Nat}
    (hfuel : fields.length ≤ fuel)
    (hitem : ∀ field ∈ fields, ∀ rest, Ends rest →
      parseValue fuel (text texts field.2 ++ rest) = some (field.2, rest)) (rest : JsString) :
    parseValue (fuel + 1) (text texts (.object fields) ++ rest) =
      some (.object fields, rest) := by
  have hmember : ∀ field ∈ fields.reverse, ∀ rest, Ends rest →
      parseMember (parseValue fuel) (fieldText texts field ++ rest) = some (field, rest) := by
    intro field hfield rest hends
    exact parseMember_fieldText (hitem field (List.mem_reverse.mp hfield) rest hends)
  have hhead : ∀ field ∈ fields.reverse,
      ∃ c s, fieldText texts field = c :: s ∧ isSpace c = false ∧ c ≠ 125 :=
    fun field _ => ⟨34, _, rfl, rfl, by decide⟩
  have hlength : fields.reverse.length ≤ fuel := by
    rw [List.length_reverse]
    exact hfuel
  rw [text, fieldTexts_eq_map, ← List.map_reverse, List.cons_append, List.append_assoc,
    parseValue_cons rfl, if_neg (by decide), if_neg (by decide), if_pos rfl,
    List.singleton_append,
    parseList_intercalate (Or.inr rfl) fields.reverse hmember hhead hlength, Option.map_some,
    List.reverse_reverse]

/-- The text of a list of values is longer than each of them and has a unit for each of them. -/
theorem length_text_array (elements : List Json) :
    elements.length < (text texts (.array elements)).length ∧
      ∀ v ∈ elements, (text texts v).length < (text texts (.array elements)).length := by
  have hcount := length_le_length_intercalate (elements.map (text texts))
  rw [List.length_map] at hcount
  rw [text, elementTexts_eq_map, List.length_cons, List.length_append, List.length_singleton]
  refine ⟨by omega, ?_⟩
  intro v hv
  have hle := length_le_of_mem_intercalate (List.mem_map_of_mem (f := text texts) hv)
  omega

theorem length_text_object (fields : List (JsString × Json)) :
    fields.length < (text texts (.object fields)).length ∧
      ∀ field ∈ fields, (text texts field.2).length < (text texts (.object fields)).length := by
  have hcount := length_le_length_intercalate (fields.reverse.map (fieldText texts))
  rw [List.length_map, List.length_reverse] at hcount
  rw [text, fieldTexts_eq_map, ← List.map_reverse, List.length_cons, List.length_append,
    List.length_singleton]
  refine ⟨by omega, ?_⟩
  intro field hfield
  have hle := length_le_of_mem_intercalate
    (List.mem_map_of_mem (f := fieldText texts) (List.mem_reverse.mpr hfield))
  rw [fieldText, List.length_append, List.length_cons] at hle
  omega

/-- No text is empty, so that the first call has fuel. -/
theorem Storable.exists_fuel {v : Json} (h : Storable texts v) {fuel : Nat}
    (hfuel : (text texts v).length ≤ fuel) : ∃ n, fuel = n + 1 := by
  obtain ⟨c, s, hs, -⟩ := h.head_text
  rw [hs, List.length_cons] at hfuel
  exact ⟨fuel - 1, by omega⟩

/-- A value is read back, whatever ends it. -/
theorem Storable.parseValue_text {v : Json} (h : Storable texts v) {fuel : Nat}
    (hfuel : (text texts v).length ≤ fuel) {rest : JsString} (hends : Ends rest) :
    parseValue fuel (text texts v ++ rest) = some (v, rest) := by
  induction h generalizing fuel rest with
  | null =>
    obtain ⟨fuel, rfl⟩ := Storable.null.exists_fuel hfuel
    rfl
  | bool b =>
    obtain ⟨fuel, rfl⟩ := (Storable.bool b).exists_fuel hfuel
    cases b <;> rfl
  | number hv =>
    obtain ⟨fuel, rfl⟩ := (Storable.number hv).exists_fuel hfuel
    exact parseValue_number hv fuel hends
  | string s =>
    obtain ⟨fuel, rfl⟩ := (Storable.string s).exists_fuel hfuel
    rw [text, scalarText, quote, List.cons_append, List.append_assoc, parseValue_cons rfl,
      if_pos rfl, List.singleton_append, parseString_quoteFrom (by simp)]
    rfl
  | @array elements helements ih =>
    obtain ⟨fuel, rfl⟩ := (Storable.array helements).exists_fuel hfuel
    obtain ⟨hcount, hlength⟩ := @length_text_array texts elements
    refine parseValue_array helements (by omega) ?_ rest
    intro v hv rest hends
    have hlt := hlength v hv
    exact ih v hv (by omega) hends
  | @object fields hfields ih =>
    obtain ⟨fuel, rfl⟩ := (Storable.object hfields).exists_fuel hfuel
    obtain ⟨hcount, hlength⟩ := @length_text_object texts fields
    refine parseValue_object (by omega) ?_ rest
    intro field hfield rest hends
    have hlt := hlength field hfield
    exact ih field hfield (by omega) hends

/-- `JSON.parse(JSON.stringify(v))` is `v` again. -/
theorem Storable.parse_text {v : Json} (h : Storable texts v) :
    parse (text texts v) = some v := by
  have hvalue := h.parseValue_text le_rfl ends_nil
  rw [List.append_nil] at hvalue
  rw [parse, hvalue]
  rfl

end Values

/-! ### The digits of an integer -/

/-- The digits of a natural number. -/
def digitUnits (n : Nat) : JsString := (Nat.toDigits 10 n).map fun d => .ofNat d.toNat

theorem digitUnits_eq (n : Nat) :
    digitUnits n =
      if n < 10 then [.ofNat (48 + n)] else digitUnits (n / 10) ++ [.ofNat (48 + n % 10)] := by
  have hunit : ∀ d : Fin 10, (.ofNat d.val.digitChar.toNat : UInt16) = .ofNat (48 + d) := by decide
  rw [digitUnits, Nat.toDigits_eq_if (by decide)]
  split_ifs with hlt
  · rw [List.map_singleton, hunit ⟨n, hlt⟩]
  · rw [List.map_append, List.map_singleton, hunit ⟨n % 10, Nat.mod_lt n (by decide)⟩]
    rfl

theorem digitValue_ofNat {d : Nat} (hd : d < 10) : digitValue (.ofNat (48 + d)) = some d := by
  have hall : ∀ d : Fin 10, digitValue (.ofNat (48 + d)) = some d.val := by decide
  exact hall ⟨d, hd⟩

theorem isDigit_ofNat {d : Nat} (hd : d < 10) : isDigit 10 (.ofNat (48 + d)) = true := by
  rw [isDigit, digitValue_ofNat hd, Option.any_some, decide_eq_true hd]

/-- The digits denote the number, and the first one is no zero unless it is the only one. -/
theorem digitUnits_spec (n : Nat) :
    ofDigits 10 (digitUnits n) = n ∧ (digitUnits n).all (isDigit 10) = true ∧
      digitUnits n ≠ [] ∧ (0 < n → (digitUnits n).head? ≠ some 48) := by
  induction n using Nat.strong_induction_on with
  | _ n ih =>
    rw [digitUnits_eq]
    split_ifs with hlt
    · have hfirst : ∀ d : Fin 10, 0 < d.val → (.ofNat (48 + d) : UInt16) ≠ 48 := by decide
      refine ⟨?_, ?_, by simp, ?_⟩
      · rw [ofDigits, List.foldl_cons, List.foldl_nil, digitValue_ofNat hlt, Option.getD_some]
        omega
      · rw [List.all_cons, isDigit_ofNat hlt]
        rfl
      · intro hpos
        simpa using hfirst ⟨n, hlt⟩ hpos
    · obtain ⟨hvalue, hdigits, hne, hhead⟩ := ih (n / 10) (by omega)
      have hmod : n % 10 < 10 := Nat.mod_lt n (by decide)
      refine ⟨?_, ?_, by simp, ?_⟩
      · rw [ofDigits] at hvalue ⊢
        rw [List.foldl_append, hvalue, List.foldl_cons, List.foldl_nil, digitValue_ofNat hmod,
          Option.getD_some]
        omega
      · rw [List.all_append, hdigits, List.all_cons, isDigit_ofNat hmod]
        rfl
      · intro _
        rw [List.head?_append_of_ne_nil _ hne]
        exact hhead (by omega)

/-- Digits are read up to where the value ends. -/
theorem takeWhile_digits {digits rest : JsString} (hdigits : digits.all (isDigit 10) = true)
    (hends : Ends rest) :
    (digits ++ rest).takeWhile (isDigit 10) = digits ∧
      (digits ++ rest).dropWhile (isDigit 10) = rest := by
  have hall : ∀ c ∈ digits, isDigit 10 c = true := List.all_eq_true.mp hdigits
  rw [List.takeWhile_append_of_pos hall, List.dropWhile_append_of_pos hall]
  cases rest with
  | nil => simp
  | cons c rest =>
    have hc : isDigit 10 c = false := by
      have hcases : c = 44 ∨ c = 93 ∨ c = 125 := hends c rfl
      rcases hcases with rfl | rfl | rfl <;> rfl
    rw [List.takeWhile_cons_of_neg (by simp [hc]), List.dropWhile_cons_of_neg (by simp [hc]),
      List.append_nil]
    exact ⟨rfl, rfl⟩

theorem parseFraction_of_ends {rest : JsString} (hends : Ends rest) :
    parseFraction rest = some ([], rest) := by
  cases rest with
  | nil => rfl
  | cons c rest =>
    have hcases : c = 44 ∨ c = 93 ∨ c = 125 := hends c rfl
    rw [parseFraction, if_neg]
    rintro rfl
    exact absurd hcases (by decide)

theorem parseExponent_of_ends {rest : JsString} (hends : Ends rest) :
    parseExponent rest = some (0, rest) := by
  cases rest with
  | nil => rfl
  | cons c rest =>
    have hcases : c = 44 ∨ c = 93 ∨ c = 125 := hends c rfl
    rw [parseExponent, if_neg]
    rintro (rfl | rfl) <;> exact absurd hcases (by decide)

theorem parseUnsigned_digitUnits (negative : Bool) (n : Nat) {rest : JsString}
    (hends : Ends rest) :
    parseUnsigned negative (digitUnits n ++ rest) = some (.ofRat (signed negative n), rest) := by
  obtain ⟨hvalue, hdigits, hne, hhead⟩ := digitUnits_spec n
  obtain ⟨htake, hdrop⟩ := takeWhile_digits hdigits hends
  have hzero : ¬(digitUnits n = [] ∨ (digitUnits n).head? = some 48 ∧ digitUnits n ≠ [48]) := by
    rintro (hnil | ⟨hfirst, hlong⟩)
    · exact hne hnil
    · rcases Nat.eq_zero_or_pos n with rfl | hpos
      · exact hlong rfl
      · exact hhead hpos hfirst
  rw [parseUnsigned]
  simp only [htake, hdrop, if_neg hzero, parseFraction_of_ends hends, parseExponent_of_ends hends,
    Option.bind_eq_bind, Option.bind_some, List.append_nil, hvalue, List.length_nil]
  simp

theorem parseNumber_digitUnits (n : Nat) {rest : JsString} (hends : Ends rest) :
    parseNumber (digitUnits n ++ rest) = some (.ofRat n, rest) := by
  have hunsigned := parseUnsigned_digitUnits false n hends
  obtain ⟨-, hdigits, hne, -⟩ := digitUnits_spec n
  obtain ⟨c, s, hs⟩ := List.exists_cons_of_ne_nil hne
  have hminus : c ≠ 45 := by
    rintro rfl
    rw [hs, List.all_cons] at hdigits
    exact absurd hdigits (by simp [show isDigit 10 45 = false from rfl])
  rw [hs, List.cons_append] at hunsigned ⊢
  rw [parseNumber, if_neg hminus, hunsigned, signed, if_neg Bool.false_ne_true]

/-- An integer that is a number is read back. -/
theorem readsBack_integers {n : ℤ} (hn : |n| < 2 ^ 53) : ReadsBack .integers n := by
  intro rest hends
  have htext : NumberTexts.integers.text n =
      (if (n : ℚ) < 0 then [45] else []) ++ digitUnits n.natAbs := by
    rw [digitUnits]
    rfl
  rw [htext, ← Number.ofRat_intCast hn]
  split_ifs with hneg
  · have hvalue : signed true (n.natAbs : ℚ) = n := by
      have hnonpos : n ≤ 0 := by exact_mod_cast hneg.le
      rw [signed, if_pos rfl, ← Int.cast_natCast, Int.ofNat_natAbs_of_nonpos hnonpos, Int.cast_neg,
        neg_neg]
    rw [List.append_assoc, List.singleton_append, parseNumber, if_pos rfl,
      parseUnsigned_digitUnits true _ hends, hvalue]
  · have hvalue : (n.natAbs : ℚ) = n := by
      have hnonneg : 0 ≤ n := by exact_mod_cast not_lt.mp hneg
      rw [← Int.cast_natCast, Int.natAbs_of_nonneg hnonneg]
    rw [List.nil_append, parseNumber_digitUnits _ hends, hvalue]

end Json

end Artha.JavaScript
