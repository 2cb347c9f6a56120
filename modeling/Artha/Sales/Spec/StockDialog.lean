import Artha.Sales.StockDialog

/-!
# The dialog never shows the row

Either the text in the attribute is in braces: then jQuery has parsed it, and `JSON.parse` fails on
`[object Object]`; or it could not be parsed, and still cannot.  Or an apostrophe has cut it short.
What is left may denote an object, but one with fewer marks than the row has: a reference stands for
at most one mark, or brings at most one to light by its backslash (`marks_decode_le`).
-/

namespace Artha.Sales.StockDialog

open JavaScript JavaScript.Json Html

variable {names : NamedReferences} {texts : NumberTexts}

/-! ### Marks in the value of the attribute -/

/-- A backslash before a text hides or shows at most one mark. -/
theorem marks_true_le (s : JsString) :
    marks true s ≤ 1 + marks false s ∧ marks false s ≤ 1 + marks true s := by
  induction s with
  | nil => simp [marks]
  | cons c s ih =>
    by_cases hc : c = 92
    · obtain rfl := hc
      simp only [marks]
      simp
      omega
    · rw [marks_cons_of_ne hc, marks]
      split_ifs <;> omega

theorem marks_cons_le (c : UInt16) (s : JsString) : marks false (c :: s) ≤ 1 + marks false s := by
  by_cases hc : c = 92
  · rw [hc, marks, if_pos rfl]
    exact (marks_true_le s).1
  · rw [marks_cons_of_ne hc]
    split_ifs <;> omega

theorem neutral_of_isReferenceUnit {c : UInt16} (hc : IsReferenceUnit c) : Neutral c := by
  rcases hc with hc | rfl | rfl
  · exact neutral_of_apply hc rfl rfl rfl
  · exact ⟨by decide, rfl⟩
  · exact ⟨by decide, rfl⟩

theorem written_of_cons {k : Nat} {c : UInt16} {s : JsString} (hc : Neutral c)
    (h : Written k (c :: s)) : Written k s := by
  obtain ⟨hescape, hmark⟩ := hc
  cases h with
  | neutral _ h => exact h
  | mark hc _ =>
    rw [hmark] at hc
    cases hc
  | escape => exact absurd rfl hescape
  | code => exact absurd rfl hescape

/-- Neutral units can be left out of a text. -/
theorem written_of_append {k : Nat} {a s : JsString} (ha : ∀ c ∈ a, Neutral c)
    (h : Written k (a ++ s)) : Written k s := by
  induction a with
  | nil => exact h
  | cons c a ih =>
    exact ih (fun d hd => ha d (by simp [hd])) (written_of_cons (ha c List.mem_cons_self) h)

/-- A reference stands for at most one mark. -/
theorem marks_reference_le {text t : JsString}
    (htext : text.length = 1 ∨ ∀ c ∈ text, c ≠ 38 ∧ c ≠ 39 ∧ c ≠ 92) :
    marks false (text ++ t) ≤ 1 + marks false t := by
  rcases htext with hlength | hunits
  · obtain ⟨c, rfl⟩ := List.length_eq_one_iff.mp hlength
    exact marks_cons_le c t
  · have hneutral : ∀ c ∈ text, Neutral c := by
      intro c hc
      obtain ⟨hamp, hapos, hescape⟩ := hunits c hc
      exact ⟨hescape, not_isMark_of_ne hamp hapos⟩
    rw [marks_append_of_neutral hneutral]
    omega

/-- The units of an escape stay as they are, and count nothing. -/
theorem marks_decode_code {digits : JsString} (hlength : digits.length = 4)
    (hdigits : digits.all (isDigit 16)) (hmark : isMark (.ofNat (ofDigits 16 digits)) = false)
    (s : JsString) :
    marks false (decode names true (92 :: 117 :: (digits ++ s))) =
      marks false (decode names true s) := by
  have hneutral : ∀ c ∈ digits, Neutral c := by
    intro c hc
    exact neutral_of_isDigit (List.all_eq_true.mp hdigits c hc)
  have hamp : 38 ∉ digits := by
    intro hmem
    exact absurd (hneutral 38 hmem).2 (by decide)
  have htake : (digits ++ decode names true s).take 4 = digits := by
    rw [← hlength, List.take_left]
  rw [decode_cons_of_ne (by decide), decode_cons_of_ne (by decide), decode_append_of_not_mem hamp,
    marks, if_pos rfl, marks, htake, marks_append_of_neutral hneutral]
  simp [isMarkCode, hmark]

/-- A reference is read as a whole. -/
theorem written_drop {k n : Nat} {s text : JsString} (h : Written k s)
    (href : reference names true s = some (text, n)) : Written k (s.drop n) := by
  have hneutral : ∀ c ∈ s.take n, Neutral c := by
    intro c hc
    exact neutral_of_isReferenceUnit (reference_units href c hc)
  refine written_of_append hneutral ?_
  rw [List.take_append_drop]
  exact h

/-- The references of a text bring no mark to light. -/
theorem marks_decode_le {k : Nat} {s : JsString} (h : Written k s) :
    marks false (decode names true s) ≤ k := by
  -- a reference is taken as a whole, so the induction is on the length
  induction hn : s.length using Nat.strong_induction_on generalizing k s with
  | _ n ih =>
    cases h with
    | nil => exact Nat.zero_le _
    | @neutral k c s hc h =>
      have hamp : c ≠ 38 := by
        rintro rfl
        exact absurd hc.2 (by decide)
      have hle := ih s.length (by rw [← hn]; simp) h rfl
      rw [decode_cons_of_ne hamp, marks_cons_of_ne hc.1, hc.2]
      simpa using hle
    | @mark k c s hc h =>
      have hle := ih s.length (by rw [← hn]; simp) h rfl
      have hcons := marks_cons_le c (decode names true s)
      by_cases hamp : c = 38
      · obtain rfl := hamp
        cases href : reference names true s with
        | none =>
          rw [decode_cons_of_none href]
          omega
        | some found =>
          obtain ⟨text, m⟩ := found
          have hshort : (s.drop m).length < n := by
            rw [← hn, List.length_drop, List.length_cons]
            omega
          have hdrop := ih (s.drop m).length hshort (written_drop h href) rfl
          have htext := marks_reference_le (t := decode names true (s.drop m))
            (reference_single href)
          rw [decode_cons_of_some href]
          omega
      · rw [decode_cons_of_ne hamp]
        omega
    | @escape k x s hcode hmark h =>
      have hamp : x ≠ 38 := by
        rintro rfl
        exact absurd hmark (by decide)
      have hshort : s.length < n := by
        rw [← hn, List.length_cons, List.length_cons]
        omega
      have hle := ih s.length hshort h rfl
      rw [decode_cons_of_ne (by decide), decode_cons_of_ne hamp, marks, if_pos rfl, marks]
      simpa [hcode] using hle
    | @code k digits s hlength hdigits hmark h =>
      have hshort : s.length < n := by
        rw [← hn]
        simp only [List.length_cons, List.length_append]
        omega
      have hle := ih s.length hshort h rfl
      rw [marks_decode_code hlength hdigits hmark]
      exact hle

/-- What stands before the first apostrophe has fewer marks. -/
theorem written_takeWhile {k : Nat} {s : JsString} (h : Written k s) (hapos : 39 ∈ s) :
    ∃ l, l < k ∧ Written l (s.takeWhile (· ≠ 39)) := by
  induction h with
  | nil => simp at hapos
  | @neutral k c s hc h ih =>
    have hne : c ≠ 39 := by
      rintro rfl
      exact absurd hc.2 (by decide)
    obtain ⟨l, hlt, hl⟩ := ih (by simpa [Ne.symm hne] using hapos)
    refine ⟨l, hlt, ?_⟩
    rw [List.takeWhile_cons_of_pos (by simpa using hne)]
    exact .neutral hc hl
  | @mark k c s hc h ih =>
    by_cases hne : c = 39
    · refine ⟨0, Nat.succ_pos k, ?_⟩
      rw [List.takeWhile_cons_of_neg (by simpa using hne)]
      exact .nil
    · obtain ⟨l, hlt, hl⟩ := ih (by simpa [Ne.symm hne] using hapos)
      refine ⟨l + 1, Nat.succ_lt_succ hlt, ?_⟩
      rw [List.takeWhile_cons_of_pos (by simpa using hne)]
      exact .mark hc hl
  | @escape k x s hcode hmark h ih =>
    have hne : x ≠ 39 := by
      rintro rfl
      exact absurd hmark (by decide)
    obtain ⟨l, hlt, hl⟩ := ih (by simpa [Ne.symm hne] using hapos)
    refine ⟨l, hlt, ?_⟩
    rw [List.takeWhile_cons_of_pos (by decide), List.takeWhile_cons_of_pos (by simpa using hne)]
    exact .escape hcode hmark hl
  | @code k digits s hlength hdigits hmark h ih =>
    have hdigit : ∀ c ∈ digits, c ≠ 39 := by
      rintro c hc rfl
      exact absurd (neutral_of_isDigit (List.all_eq_true.mp hdigits _ hc)).2 (by decide)
    have hmem : 39 ∉ digits := fun hmem => hdigit 39 hmem rfl
    obtain ⟨l, hlt, hl⟩ := ih (by simpa [hmem] using hapos)
    refine ⟨l, hlt, ?_⟩
    rw [List.takeWhile_cons_of_pos (by decide), List.takeWhile_cons_of_pos (by decide),
      List.takeWhile_append_of_pos (by simpa using hdigit)]
    exact .code hlength hdigits hmark hl

/-! ### What the handler reads -/

/-- A text that begins with a brace denotes an object. -/
theorem exists_object_of_parse {s : JsString} {v : Json} (hhead : s.head? = some 123)
    (h : parse s = some v) : ∃ fields, v = .object fields := by
  obtain ⟨rest, rfl⟩ := List.head?_eq_some_iff.mp hhead
  obtain ⟨⟨v', rest'⟩, hvalue, h⟩ := Option.bind_eq_some_iff.mp h
  dsimp only at h
  split_ifs at h
  obtain rfl := Option.some.inj h
  rw [List.length_cons, parseValue] at hvalue
  have hskip : skipSpace (123 :: rest) = 123 :: rest := rfl
  rw [hskip] at hvalue
  obtain ⟨⟨fields, rest''⟩, -, heq⟩ := Option.map_eq_some_iff.mp hvalue
  obtain ⟨rfl, -⟩ := Prod.mk.inj heq
  exact ⟨_, rfl⟩

theorem parse_objectText : parse objectText = none := by decide

/-- `JSON.parse` fails on every object. -/
theorem toText_object (fields : List (JsString × Json)) :
    (toText texts (.object fields)).bind parse = none := by
  unfold toText
  split_ifs
  · rfl
  · exact parse_objectText

theorem toText_string (s : JsString) : toText texts (.string s) = some s := rfl

/-- A text that begins with a brace is no number, and no word. -/
theorem data_of_brace {value : JsString} (hhead : value.head? = some 123) :
    data texts value =
      if isBraced value then (parse value).getD (.string value) else .string value := by
  have hne : ∀ s : JsString, s.head? ≠ some 123 → value ≠ s := by
    rintro s hs rfl
    exact hs hhead
  have hnumber : ∀ x, (texts.numberText x).head? ≠ some 123 := by
    intro x hx
    obtain _ | negative | v := x
    · cases hx
    · cases negative <;> cases hx
    · rcases texts.units v 123 (List.mem_of_mem_head? hx) with h | h | h | h | h <;>
        exact absurd h (by decide)
  unfold data
  rw [if_neg (hne _ (by simp [scalarText])), if_neg (hne _ (by simp [scalarText])),
    if_neg (hne _ (by simp [scalarText])), if_neg (hne _ (hnumber _))]

/-- The second `JSON.parse` gives something only if jQuery has left the text alone. -/
theorem parse_of_stockData {stock : Stock} {v : Json}
    (hhead : (dataStock names texts stock).head? = some 123)
    (h : stockData names texts stock = some v) :
    isBraced (dataStock names texts stock) = false ∧
      parse (dataStock names texts stock) = some v := by
  unfold stockData at h
  rw [data_of_brace hhead] at h
  split_ifs at h with hbraced
  · cases hparse : parse (dataStock names texts stock) with
    | none =>
      rw [hparse, Option.getD_none, toText_string, Option.bind_some, hparse] at h
      cases h
    | some v' =>
      obtain ⟨fields, rfl⟩ := exists_object_of_parse hhead hparse
      rw [hparse, Option.getD_some, toText_object] at h
      cases h
  · rw [toText_string, Option.bind_some] at h
    exact ⟨by simpa using hbraced, h⟩

/-! ### The row is not shown -/

theorem head_dataStock (stock : Stock) : (dataStock names texts stock).head? = some 123 := by
  unfold dataStock stringify
  rw [List.takeWhile_cons_of_pos (by decide), decode_cons_of_ne (by decide)]
  rfl

/-- Without an apostrophe the whole text is in the attribute, with its braces. -/
theorem isBraced_dataStock {stock : Stock} (hapos : 39 ∉ stringify texts stock.fields) :
    isBraced (dataStock names texts stock) = true := by
  have hall : ∀ c ∈ stringify texts stock.fields, decide (c ≠ 39) = true := by
    intro c hc
    exact decide_eq_true fun heq => hapos (heq ▸ hc)
  have hunit : ¬IsReferenceUnit 125 := by
    rintro (h | h | h) <;> exact absurd h (by decide)
  obtain ⟨d, hd⟩ := @decodeFrom_concat names true 125 hunit (by decide) 0 _
    (Nat.zero_le (123 :: membersText texts stock.fields).length)
  have hlast : dataStock names texts stock = d ++ [125] := by
    unfold dataStock
    rw [List.takeWhile_eq_self_iff.mpr hall]
    exact hd
  unfold isBraced
  rw [head_dataStock, hlast]
  simp

/-- A list without one field has the other ones still. -/
theorem exists_erase_of_lookup {fs : List (JsString × Json)} {key : JsString} {v : Json}
    (h : fs.lookup key = some v) :
    ∃ fs', total fieldMarks fs = fieldMarks (key, v) + total fieldMarks fs' ∧
      ∀ other, other ≠ key → fs'.lookup other = fs.lookup other := by
  obtain ⟨pre, post, rfl, -⟩ := List.lookup_eq_some_iff.mp h
  refine ⟨pre ++ post, ?_, ?_⟩
  · rw [total_append, total_append, total_cons]
    omega
  · intro other hne
    have hbeq : (other == key) = false := by simpa using hne
    rw [List.lookup_append, List.lookup_append, List.lookup_cons, hbeq]

/-- Who has the fields with marks has the marks. -/
theorem total_le_of_lookup {fields fs : List (JsString × Json)}
    (hnodup : (fields.map Prod.fst).Nodup)
    (h : ∀ f ∈ fields, 0 < fieldMarks f → fs.lookup f.1 = some f.2) :
    total fieldMarks fields ≤ total fieldMarks fs := by
  induction fields generalizing fs with
  | nil => exact Nat.zero_le _
  | cons f fields ih =>
    obtain ⟨key, v⟩ := f
    rw [List.map_cons, List.nodup_cons] at hnodup
    have hkey : 0 < fieldMarks (key, v) → fs.lookup key = some v := h (key, v) List.mem_cons_self
    have htail : ∀ g ∈ fields, 0 < fieldMarks g → fs.lookup g.1 = some g.2 :=
      fun g hg => h g (List.mem_cons_of_mem _ hg)
    rw [total_cons]
    rcases Nat.eq_zero_or_pos (fieldMarks (key, v)) with hzero | hpos
    · have hle := ih hnodup.2 htail
      omega
    · obtain ⟨fs', htotal, hothers⟩ := exists_erase_of_lookup (hkey hpos)
      have hle : total fieldMarks fields ≤ total fieldMarks fs' := by
        refine ih hnodup.2 ?_
        intro g hg hmarks
        have hne : g.1 ≠ key := by
          rintro rfl
          exact hnodup.1 (List.mem_map.mpr ⟨g, hg, rfl⟩)
        rw [hothers _ hne]
        exact htail g hg hmarks
      omega

namespace Stock

/-- The fields as values. -/
def values (stock : Stock) : List (JsString × Json) :=
  stock.fields.map fun field => (field.1, field.2.toJson)

/-- `data[key]`. -/
def get (stock : Stock) (key : JsString) : Option Json := stock.values.lookup key

theorem nodup_values (stock : Stock) : (stock.values.map Prod.fst).Nodup := by
  have heq : stock.values.map Prod.fst = stock.fields.map Prod.fst := by
    simp [values, Function.comp_def]
  rw [heq]
  exact stock.nodup

end Stock

/-- What the handler reads lacks some field in which there is a mark. -/
theorem exists_ne_of_stockData {stock : Stock} {v : Json}
    (h : stockData names texts stock = some v) :
    ∃ field ∈ stock.values, 0 < fieldMarks field ∧ v.get? field.1 ≠ some field.2 := by
  obtain ⟨hbraced, hparse⟩ := parse_of_stockData (head_dataStock stock) h
  obtain ⟨fs, rfl⟩ := exists_object_of_parse (head_dataStock stock) hparse
  have hapos : 39 ∈ stringify texts stock.fields := by
    by_contra hapos
    rw [isBraced_dataStock hapos] at hbraced
    cases hbraced
  obtain ⟨l, hlt, hwritten⟩ := written_takeWhile (written_stringify texts stock.fields) hapos
  have hdecode : marks false (dataStock names texts stock) ≤ l := marks_decode_le hwritten
  have hvalue : total fieldMarks fs ≤ marks false (dataStock names texts stock) :=
    valueMarks_le_of_parse hparse
  by_contra hnone
  push Not at hnone
  have hle : total fieldMarks stock.values ≤ total fieldMarks fs :=
    total_le_of_lookup stock.nodup_values hnone
  have heq : total fieldMarks stock.values = total fieldMarks (stock.fields.map fun field =>
    (field.1, field.2.toJson)) := rfl
  omega

/-- The handler reads the row back: an object with every field that the row has. -/
def Yields (names : NamedReferences) (texts : NumberTexts) (stock : Stock) : Prop :=
  ∃ v, stockData names texts stock = some v ∧
    ∀ field ∈ stock.fields, v.get? field.1 = some field.2.toJson

/-- No row is read back. -/
theorem stockData_never_yields (names : NamedReferences) (texts : NumberTexts) (stock : Stock) :
    ¬Yields names texts stock := by
  rintro ⟨v, hv, hfields⟩
  obtain ⟨field, hmem, -, hne⟩ := exists_ne_of_stockData hv
  obtain ⟨field', hmem', rfl⟩ := List.mem_map.mp hmem
  exact hne (hfields field' hmem')

/-- A row without any special character: its text is one that `JSON.parse` accepts, but the click
throws. -/
theorem stockData_plain :
    let stock : Stock :=
      { fields := [(stockIdKey, .number (.finite 1)), (productNameKey, .string [65]),
          (quantityKey, .number (.finite 2)), (noteKey, .string [])]
        nodup := by decide }
    (parse (stringify .integers stock.fields)).isSome = true ∧
      stockData .escapes .integers stock = none :=
  ⟨by decide, Option.isNone_iff_eq_none.mp (by decide)⟩

/-! ### The dialog -/

theorem lookup_of_mem {fields : List (JsString × Json)} (hnodup : (fields.map Prod.fst).Nodup)
    {field : JsString × Json} (hmem : field ∈ fields) :
    fields.lookup field.1 = some field.2 := by
  obtain ⟨pre, post, rfl⟩ := List.append_of_mem hmem
  refine List.lookup_eq_some_iff.mpr ⟨pre, post, rfl, ?_⟩
  intro f hf
  rw [List.map_append, List.map_cons, List.nodup_append] at hnodup
  have hne : f.1 ≠ field.1 := hnodup.2.2 f.1 (List.mem_map_of_mem hf) field.1 List.mem_cons_self
  simpa using hne.symm

/-- A note with a mark is shown as it is. -/
theorem get?_note_of_fill {get get' : JsString → Option Json} {w : JsString} (hw : w ≠ [])
    (hnote : get' noteKey = some (.string w)) (h : fill get = fill get') :
    get noteKey = some (.string w) := by
  have heq : ((get noteKey).filter Json.truthy).getD (.string []) = .string w := by
    have hfill := congrArg Dialog.stockNote h
    simp only [fill, hnote] at hfill
    rw [hfill]
    simp [Option.filter, Json.truthy, hw]
  cases hget : get noteKey with
  | none =>
    rw [hget] at heq
    exact absurd (Json.string.inj heq).symm hw
  | some v =>
    rw [hget, Option.filter] at heq
    split_ifs at heq
    · exact congrArg some heq
    · exact absurd (Json.string.inj heq).symm hw

/-- The dialog shows no row, if only what it shows has a mark. -/
theorem click_ne_fill (names : NamedReferences) (texts : NumberTexts) {stock : Stock}
    (hshown : ∀ field ∈ stock.values, 0 < fieldMarks field →
      field.1 ∈ [stockIdKey, productNameKey, quantityKey, noteKey]) :
    click names texts stock ≠ some (fill stock.get) := by
  intro hclick
  obtain ⟨v, hv, hfill⟩ := Option.bind_eq_some_iff.mp hclick
  have hdialog : fill v.get? = fill stock.get := by
    cases v with
    | null => cases hfill
    | _ => exact Option.some.inj hfill
  obtain ⟨field, hmem, hmarks, hne⟩ := exists_ne_of_stockData hv
  have hget : stock.get field.1 = some field.2 := lookup_of_mem stock.nodup_values hmem
  refine hne ?_
  have hkeys := hshown field hmem hmarks
  simp only [List.mem_cons, List.not_mem_nil, or_false] at hkeys
  rcases hkeys with hkey | hkey | hkey | hkey
  · rw [hkey] at hget ⊢
    exact (congrArg Dialog.stockId hdialog).trans hget
  · rw [hkey] at hget ⊢
    exact (congrArg Dialog.productName hdialog).trans hget
  · rw [hkey] at hget ⊢
    exact (congrArg Dialog.currentStock hdialog).trans hget
  · obtain ⟨key, value⟩ := field
    obtain rfl : key = noteKey := hkey
    -- the name has no mark, so the value is a string with one
    have hstring : 0 < stringMarks value := by
      have hname : noteKey.countP isMark = 0 := rfl
      rw [fieldMarks] at hmarks
      dsimp only at hmarks
      omega
    cases value with
    | string w =>
      refine get?_note_of_fill ?_ hget hdialog
      rintro rfl
      exact absurd hstring (by decide)
    | _ => exact absurd hstring (by simp [stringMarks])

end Artha.Sales.StockDialog
