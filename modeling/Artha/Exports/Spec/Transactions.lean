import Artha.Codec.Utf
import Artha.Exports.Transactions
import Artha.Html.References

/-!
# Which transactions can be exported

Four columns are read with `??`, and a record may lack them.  The dates are read without: a record
without one of them ends the export, and no row is written.  Both exporters write the cells of
`expectedRow` exactly if every record has the two dates, each of which may be `null`.
-/

namespace Artha.Exports

open Php Laravel Codec.Utf Html

/-! ### Records -/

/-- The type that a column expects. -/
def expected (key : String) (v : Value) : Bool :=
  if key = "total_amount" then isNumeric v
  else
    match v with
    | .str _ => true
    | .arr _ => false
    | _ => key ≠ "created_at" && key ≠ "updated_at"

/-- A record: any keys, with `null` or a value of the expected type. -/
structure Record where
  entries : List (String × Value)
  typed : ∀ key v, entries.lookup key = some v → v = .null ∨ expected key v = true

namespace Record

variable (r : Record)

/-- The array. -/
def value : Value := .arr r.entries

/-- The value under a key, unless it is `null`. -/
def field (key : String) : Option Value := (r.entries.lookup key).filter (· ≠ .null)

/-- The record has the key. -/
def Has (key : String) : Prop := (r.entries.lookup key).isSome = true

theorem getD_eq_field (key : String) (default : Value) :
    r.value.getD key default = (r.field key).getD default := by
  have hget : r.value.get? key = r.entries.lookup key := rfl
  unfold Value.getD
  rw [hget, field]
  cases r.entries.lookup key with
  | none => rfl
  | some v => cases v <;> rfl

theorem expected_of_field {key : String} {v : Value} (h : r.field key = some v) :
    expected key v = true := by
  obtain ⟨hlookup, hne⟩ := Option.filter_eq_some_iff.mp h
  rcases r.typed key v hlookup with hnull | htyped
  · simp [hnull] at hne
  · exact htyped

end Record

variable (F : Formats)

/-! ### The cells -/

/-- A text cell. -/
def textCell (r : Record) (key : String) : Value := (r.field key).getD (.str "")

/-- The cell of the amount. -/
def amountCell (r : Record) : String :=
  "Rp " ++ (r.field "total_amount").elim "0,00" F.numberFormat

/-- The cell of a date; a text that PHP takes for false is no date. -/
def dateCell (r : Record) (key : String) : String :=
  match r.field key with
  | some (.str s) => if s = "" ∨ s = "0" then "" else F.date s
  | _ => ""

/-- The row of a record. -/
def expectedRow (r : Record) : List Value :=
  [textCell r "transaction_id", textCell r "customer_name", .str (amountCell F r),
    textCell r "status", .str (dateCell F r "created_at"), .str (dateCell F r "updated_at")]

/-- The text of a cell. -/
def cellText : Value → String
  | .null => ""
  | .bool b => if b then "1" else ""
  | .int n => toString n
  | .float bits => F.floatToString bits
  | .str s => s
  | .arr _ => ""

/-! ### What the exporters read -/

theorem number_format_field (r : Record) :
    number_format F (r.value.getD "total_amount" (.int 0)) =
      .ok ((r.field "total_amount").elim "0,00" F.numberFormat) := by
  rw [r.getD_eq_field]
  cases h : r.field "total_amount" with
  | none =>
    rw [Option.getD_none, Option.elim_none, number_format, ← F.numberFormat_zero]
    · rfl
    · simp
  | some v =>
    have hnumeric : isNumeric v = true := r.expected_of_field h
    rw [Option.getD_some, Option.elim_some, number_format, if_pos hnumeric]
    rintro b rfl
    cases hnumeric

/-- The dates, once they can be read. -/
theorem dateOrEmpty_read {r : Record} {key : String} {v : Value}
    (hkey : key = "created_at" ∨ key = "updated_at") (h : r.entries.lookup key = some v) :
    dateOrEmpty F v = .ok (dateCell F r key) := by
  have hfield : r.field key = if v = .null then none else some v := by
    rw [Record.field, h]
    by_cases hnull : v = .null <;> simp [Option.filter, hnull]
  rcases r.typed key v h with rfl | htyped
  · rw [dateCell, hfield]
    rfl
  · obtain ⟨s, rfl⟩ : ∃ s, v = .str s := by
      rcases hkey with rfl | rfl <;> cases v <;> simp [expected] at htyped ⊢
    rw [dateCell, hfield, if_neg (by simp)]
    by_cases hfalse : s = "" ∨ s = "0"
    · have htruthy : (Value.str s).truthy = false := by
        rcases hfalse with rfl | rfl <;> rfl
      simp [dateOrEmpty, htruthy, hfalse]
    · have htruthy : (Value.str s).truthy = true := by
        simpa [Value.truthy] using hfalse
      simp only [dateOrEmpty, htruthy, if_true, hfalse, if_false]
      rfl

theorem read_eq_ok {r : Record} {key : String} {v : Value} (h : r.entries.lookup key = some v) :
    r.value.read key = .ok v := by
  simp [Record.value, Value.read, h]

theorem read_eq_error {r : Record} {key : String} (h : ¬r.Has key) :
    ∃ error, r.value.read key = .error error := by
  have hnone : r.entries.lookup key = none := Option.not_isSome_iff_eq_none.mp h
  rw [Record.value, Value.read, hnone]
  exact ⟨_, rfl⟩

/-- A record is mapped to its row if it has both dates; otherwise the export ends. -/
theorem map_eq (r : Record) :
    (r.Has "created_at" ∧ r.Has "updated_at" ∧ map F r.value = .ok (expectedRow F r)) ∨
      (¬(r.Has "created_at" ∧ r.Has "updated_at") ∧ ∃ error, map F r.value = .error error) := by
  by_cases hcreated : r.Has "created_at"
  · obtain ⟨created, hlookup⟩ := Option.isSome_iff_exists.mp hcreated
    have hdate := dateOrEmpty_read F (.inl rfl) hlookup
    by_cases hupdated : r.Has "updated_at"
    · obtain ⟨updated, hlookup'⟩ := Option.isSome_iff_exists.mp hupdated
      have hdate' := dateOrEmpty_read F (.inr rfl) hlookup'
      refine .inl ⟨hcreated, hupdated, ?_⟩
      simp only [map, number_format_field, read_eq_ok hlookup, read_eq_ok hlookup', hdate, hdate',
        bind, Except.bind]
      simp only [r.getD_eq_field]
      rfl
    · obtain ⟨error, herror⟩ := read_eq_error hupdated
      refine .inr ⟨fun h => hupdated h.2, error, ?_⟩
      simp only [map, number_format_field, read_eq_ok hlookup, hdate, herror, bind, Except.bind]
  · obtain ⟨error, herror⟩ := read_eq_error hcreated
    refine .inr ⟨fun h => hcreated h.1, error, ?_⟩
    simp only [map, number_format_field, herror, bind, Except.bind]

/-! ### The escaped texts -/

theorem e_append (s t : String) : e (s ++ t) = e s ++ e t := by
  simp [e]

/-- The characters that `e` replaces. -/
def special : List Char := ['&', '<', '>', '\x22', '\x27']

theorem escapeChar_of_not_mem {c : Char} (h : c ∉ special) : escapeChar c = [c] := by
  simp only [special, List.mem_cons, List.not_mem_nil, or_false, not_or] at h
  simp [escapeChar, h]

theorem escapeUnit_of_not_mem {u : UInt16} (h : ∀ c ∈ special, u ≠ .ofNat c.toNat) :
    escapeUnit u = [u] := by
  simp only [special, List.forall_mem_cons] at h
  obtain ⟨hamp, hlt, hgt, hquot, hapos, -⟩ := h
  unfold escapeUnit
  refine (if_neg hamp).trans ((if_neg hlt).trans ((if_neg hgt).trans ((if_neg hquot).trans ?_)))
  exact if_neg hapos

theorem toNat_lt (c : Char) : c.toNat < 0x110000 := by
  rcases c.valid with h | ⟨-, h⟩
  · exact lt_trans h (by decide)
  · exact h

/-- No unit of another character is that of a special one. -/
theorem utf16Char_ne {c d : Char} (hd : d ∈ special) (hc : c ≠ d) {u : UInt16}
    (hu : u ∈ utf16Char c) : u ≠ .ofNat d.toNat := by
  have hall : special.all (fun d => d.toNat < 128) = true := by decide
  have hsmall : d.toNat < 128 := by simpa using List.all_eq_true.mp hall d hd
  have hsize : UInt16.size = 65536 := rfl
  intro heq
  have hnat := congrArg UInt16.toNat heq
  rw [UInt16.toNat_ofNat_of_lt' (by omega)] at hnat
  unfold utf16Char at hu
  split_ifs at hu with hbmp
  · rw [List.mem_singleton.mp hu, UInt16.toNat_ofNat_of_lt' (by omega)] at hnat
    exact hc (Char.toNat_inj.mp hnat)
  · have hlt := toNat_lt c
    simp only [List.mem_cons, List.not_mem_nil, or_false] at hu
    rcases hu with hu | hu
    · rw [hu, UInt16.toNat_ofNat_of_lt' (by omega)] at hnat
      omega
    · rw [hu, UInt16.toNat_ofNat_of_lt' (by omega)] at hnat
      omega

theorem utf16_escapeChar (c : Char) : utf16 (escapeChar c) = (utf16Char c).flatMap escapeUnit := by
  have hall : special.all (fun c => utf16 (escapeChar c) = (utf16Char c).flatMap escapeUnit) =
      true := by decide
  by_cases hc : c ∈ special
  · simpa using List.all_eq_true.mp hall c hc
  · have hunits : ∀ u ∈ utf16Char c, escapeUnit u = [u] := by
      intro u hu
      refine escapeUnit_of_not_mem ?_
      intro d hd
      refine utf16Char_ne hd ?_ hu
      rintro rfl
      exact hc hd
    rw [escapeChar_of_not_mem hc, List.flatMap_congr hunits]
    simp [utf16]

/-- The units of an escaped text are those of the text, escaped. -/
theorem utf16_e (s : String) : utf16 (e s).toList = (utf16 s.toList).flatMap escapeUnit := by
  rw [e, String.toList_ofList]
  unfold utf16
  rw [List.flatMap_assoc, List.flatMap_assoc]
  exact List.flatMap_congr fun c _ => utf16_escapeChar c

/-- The contents of a cell are a text, and this one. -/
structure Shows (names : NamedReferences) (markup text : String) : Prop where
  no_tag : '<' ∉ markup.toList
  denotes : decode names false (utf16 markup.toList) = utf16 text.toList

theorem shows_e (names : NamedReferences) (s : String) : Shows names (e s) s where
  no_tag := by
    rw [e, String.toList_ofList, List.mem_flatMap]
    rintro ⟨c, -, hmem⟩
    by_cases hc : c ∈ special
    · have hall : special.all (fun c => !(escapeChar c).contains '<') = true := by decide
      have hnone := List.all_eq_true.mp hall c hc
      rw [Bool.not_eq_true', ← Bool.not_eq_true, List.contains_iff_mem] at hnone
      exact hnone hmem
    · rw [escapeChar_of_not_mem hc, List.mem_singleton] at hmem
      rw [← hmem] at hc
      exact hc (by decide)
  denotes := by rw [utf16_e, decode_flatMap_escapeUnit]

/-! ### The view -/

theorem echo_textCell (r : Record) {key : String} (hkey : key ≠ "total_amount") :
    echo F (r.value.getD key (.str "")) = .ok (e (cellText F (textCell r key))) := by
  rw [r.getD_eq_field]
  cases h : r.field key with
  | none =>
    rw [textCell, h]
    rfl
  | some v =>
    have hexpected := r.expected_of_field h
    rw [textCell, h, Option.getD_some]
    cases v with
    | arr es => simp [expected, hkey] at hexpected
    | null | bool b | int n | float bits | str s => rfl

/-- The view writes the first five cells of the row, if it can read the date. -/
theorem viewRow_eq (r : Record) (h : r.Has "created_at") :
    viewRow F r.value = .ok (((expectedRow F r).take 5).map fun cell => e (cellText F cell)) := by
  obtain ⟨created, hlookup⟩ := Option.isSome_iff_exists.mp h
  have hrp : e "Rp " = "Rp " := by decide
  have hamount : e (amountCell F r) =
      "Rp " ++ e ((r.field "total_amount").elim "0,00" F.numberFormat) := by
    rw [amountCell, e_append, hrp]
  simp only [viewRow, echo_textCell F r (show "transaction_id" ≠ "total_amount" by decide),
    echo_textCell F r (show "customer_name" ≠ "total_amount" by decide),
    echo_textCell F r (show "status" ≠ "total_amount" by decide), number_format_field,
    read_eq_ok hlookup, dateOrEmpty_read F (.inl rfl) hlookup, bind, Except.bind]
  rw [← hamount]
  rfl

/-! ### The export -/

theorem mapM_eq_ok {α : Type} {f : Value → Except Throwable (List α)} {g : Record → List α}
    {records : List Record} (h : ∀ r ∈ records, f r.value = .ok (g r)) :
    (records.map Record.value).mapM f = .ok (records.map g) := by
  induction records with
  | nil => rfl
  | cons r records ih =>
    have hrest := ih fun r' hr' => h r' (List.mem_cons_of_mem _ hr')
    rw [List.map_cons, List.mapM_cons, h r List.mem_cons_self, hrest]
    rfl

/-- One record that raises ends the export. -/
theorem mapM_ne_ok {α : Type} {f : Value → Except Throwable (List α)} {records : List Record}
    {r : Record} (hr : r ∈ records) (h : ∃ error, f r.value = .error error)
    (rows : List (List α)) : (records.map Record.value).mapM f ≠ .ok rows := by
  obtain ⟨error, herror⟩ := h
  induction records generalizing rows with
  | nil => cases hr
  | cons first records ih =>
    rw [List.map_cons, List.mapM_cons]
    cases hfirst : f first.value with
    | error err =>
      intro hok
      cases hok
    | ok row =>
      have hmem : r ∈ records := by
        rcases List.mem_cons.mp hr with rfl | hmem
        · rw [herror] at hfirst
          cases hfirst
        · exact hmem
      cases hrest : (records.map Record.value).mapM f with
      | error err =>
        intro hok
        cases hok
      | ok rest => exact absurd hrest (ih hmem rest)

theorem forall₂_shows (names : NamedReferences) (row : List Value) :
    List.Forall₂ (fun cell markup => Shows names markup (cellText F cell)) row
      (row.map fun cell => e (cellText F cell)) := by
  rw [List.forall₂_map_right_iff, List.forall₂_same]
  intro cell _
  exact shows_e names _

/-- Both exporters write the row of every record, in order, exactly if every record has its
dates. -/
theorem export_iff (names : NamedReferences) (records : List Record) :
    (∃ rows cells, spreadsheet F (records.map Record.value) = .ok rows ∧
        view F (records.map Record.value) = .ok cells ∧
        rows = records.map (expectedRow F) ∧
        (∀ row ∈ rows, row.length = headings.length) ∧
        List.Forall₂ (fun row line => List.Forall₂ (fun cell markup =>
          Shows names markup (cellText F cell)) (row.take 5) line) rows cells) ↔
      ∀ r ∈ records, r.Has "created_at" ∧ r.Has "updated_at" := by
  constructor
  · rintro ⟨rows, cells, hrows, -⟩ r hr
    by_contra hnot
    rcases map_eq F r with ⟨hcreated, hupdated, -⟩ | ⟨-, herror⟩
    · exact hnot ⟨hcreated, hupdated⟩
    · exact mapM_ne_ok hr herror rows hrows
  · intro h
    refine ⟨records.map (expectedRow F),
      records.map fun r => ((expectedRow F r).take 5).map fun cell => e (cellText F cell),
      mapM_eq_ok ?_, mapM_eq_ok ?_, rfl, ?_, ?_⟩
    · intro r hr
      rcases map_eq F r with ⟨-, -, hmap⟩ | ⟨hnot, -⟩
      · exact hmap
      · exact absurd (h r hr) hnot
    · intro r hr
      exact viewRow_eq F r (h r hr).1
    · intro row hrow
      obtain ⟨r, -, rfl⟩ := List.mem_map.mp hrow
      rfl
    · rw [List.forall₂_map_left_iff, List.forall₂_map_right_iff, List.forall₂_same]
      intro r _
      exact forall₂_shows F names _

/-- A record without its dates, which raises at the first of them. -/
theorem export_without_date :
    let F : Formats :=
      { floatToString := fun _ => "", numberFormat := fun _ => "0,00", numberFormat_zero := rfl,
        date := fun s => s }
    (∃ error, spreadsheet F [.arr [("transaction_id", .int 1)]] = .error error) ∧
      ∃ error, view F [.arr [("transaction_id", .int 1)]] = .error error :=
  ⟨⟨_, rfl⟩, _, rfl⟩

end Artha.Exports
