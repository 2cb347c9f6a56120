import Artha.Exports.Spec.Transactions
import Artha.Html.Contents
import Artha.Html.Template

/-!
# What the table of the PDF is read as

Every text of a record is escaped, so that the markup of the table has one row of five cells for
each record, and the cells show the texts, whatever these are.  A line break is read as one, however
it is written.
-/

namespace Artha.Exports

open Php Codec.Utf Html JavaScript

/-- The texts of the cells that the view writes for a record. -/
def shownTexts (F : Formats) (r : Record) : List String :=
  ((expectedRow F r).take 5).map (cellText F)

/-! ### The tokens of the table -/

/-- A line break, and the spaces behind it. -/
def indent (n : Nat) : List Html.Item := .char 10 :: List.replicate n (.char 32)

def startTag (name : String) : Html.Item := .tag ⟨false, units name, []⟩

def endTag (name : String) : Html.Item := .tag ⟨true, units name, []⟩

/-- A cell that shows the text. -/
def cellItems (text : String) : List Html.Item :=
  indent 16 ++ startTag "td" :: ((normalizeNewlines (utf16 text.toList)).map .char ++ [endTag "td"])

/-- A row of such cells. -/
def rowItems (texts : List String) : List Html.Item :=
  List.replicate 12 (.char 32) ++ startTag "tr" :: (texts.flatMap cellItems ++
    (indent 12 ++ endTag "tr" :: indent 12))

/-! ### The template -/

def cellParts (text : String) : Template :=
  [([], units "\n                <td>"), (utf16 text.toList, units "</td>")]

def rowParts (texts : List String) : Template :=
  ([], units "            <tr>") ::
    (texts.flatMap cellParts ++ [([], units "\n            </tr>\n            ")])

theorem wellFormed_rowParts (texts : List String) : Template.WellFormed (rowParts texts) := by
  have hcell : ∀ text : String, Template.WellFormed (cellParts text) := by
    intro text p hp
    simp only [cellParts, List.mem_cons, List.not_mem_nil, or_false] at hp
    have hclose : Template.isComplete (units "</td>") = true ∧ units "</td>" ≠ [] ∧
        (units "</td>").head? ≠ some 10 := by decide
    rcases hp with rfl | rfl
    · exact ⟨by decide, by decide, .inl rfl⟩
    · exact ⟨hclose.1, hclose.2.1, .inr hclose.2.2⟩
  intro p hp
  simp only [rowParts, List.mem_cons, List.mem_append, List.not_mem_nil, or_false] at hp
  rcases hp with rfl | hp | rfl
  · exact ⟨by decide, by decide, .inl rfl⟩
  · exact Template.wellFormed_flatMap (fun text _ => hcell text) p hp
  · exact ⟨by decide, by decide, .inl rfl⟩

theorem items_cellParts (text : String) : Template.items (cellParts text) = cellItems text := by
  have hopen : (feed .data (units "\n                <td>")).1 = indent 16 ++ [startTag "td"] := by
    decide
  have hclose : (feed .data (units "</td>")).1 = [endTag "td"] := by decide
  simp only [Template.items, cellParts, List.flatMap_cons, List.flatMap_nil, hopen, hclose,
    List.append_nil]
  simp [cellItems, normalizeNewlines, normalizeFrom]

theorem items_rowParts (texts : List String) :
    Template.items (rowParts texts) = rowItems texts := by
  have hopen : (feed .data (units "            <tr>")).1 =
      List.replicate 12 (.char 32) ++ [startTag "tr"] := by decide
  have hclose : (feed .data (units "\n            </tr>\n            ")).1 =
      indent 12 ++ endTag "tr" :: indent 12 := by decide
  have hcells := Template.items_flatMap texts cellParts
  simp only [items_cellParts] at hcells
  rw [rowParts, rowItems, ← List.singleton_append, Template.items_append, Template.items_append,
    hcells]
  simp [Template.items, hopen, hclose, normalizeNewlines, normalizeFrom]

theorem utf16_append (s t : String) :
    utf16 (s ++ t).toList = utf16 s.toList ++ utf16 t.toList := by
  simp [utf16]

theorem utf16_join (l : List String) :
    utf16 (String.join l).toList = l.flatMap fun s => utf16 s.toList := by
  rw [String.toList_join]
  exact List.flatMap_assoc

/-- The view prints the template. -/
theorem utf16_rowMarkup (texts : List String) :
    utf16 (rowMarkup (texts.map e)).toList = Template.markup (rowParts texts) := by
  have hopen : utf16 "            <tr>".toList = units "            <tr>" := by decide
  have hcell : utf16 "\n                <td>".toList = units "\n                <td>" := by decide
  have hcellEnd : utf16 "</td>".toList = units "</td>" := by decide
  have hclose : utf16 "\n            </tr>\n            ".toList =
      units "\n            </tr>\n            " := by decide
  have hcells : ∀ text : String,
      utf16 ("\n                <td>" ++ e text ++ "</td>").toList =
        Template.markup (cellParts text) := by
    intro text
    rw [utf16_append, utf16_append, utf16_e, hcell, hcellEnd]
    simp [Template.markup, cellParts]
  rw [rowMarkup, utf16_append, utf16_append, utf16_join, List.flatMap_map, List.flatMap_map, hopen,
    hclose, List.flatMap_congr fun text _ => hcells text, ← Template.markup_flatMap, rowParts,
    ← List.singleton_append, Template.markup_append, Template.markup_append]
  simp [Template.markup]

theorem tokens_tableBody (names : NamedReferences) (ownText : Tag → JsString → Nat)
    (rows : List (List String)) :
    tokens names ownText (utf16 (tableBody (rows.map fun texts => texts.map e)).toList) =
      rows.flatMap rowItems := by
  have hmarkup : utf16 (tableBody (rows.map fun texts => texts.map e)).toList =
      Template.markup (rows.flatMap rowParts) := by
    rw [tableBody, utf16_join, List.flatMap_map, List.flatMap_map, Template.markup_flatMap]
    exact List.flatMap_congr fun texts _ => utf16_rowMarkup texts
  have hwell : Template.WellFormed (rows.flatMap rowParts) :=
    Template.wellFormed_flatMap fun texts _ => wellFormed_rowParts texts
  rw [hmarkup, Template.tokens_markup hwell, Template.items_flatMap]
  exact List.flatMap_congr fun texts _ => items_rowParts texts

/-! ### What the cells show -/

/-- What a text is shown as: line breaks are normalised, and a NUL is left out. -/
def shown (text : String) : JsString :=
  (normalizeNewlines (utf16 text.toList)).filter (· ≠ 0)

theorem contents_cellItems (text : String) (items : List Html.Item) :
    contents (units "td") (cellItems text ++ items) =
      shown text :: contents (units "td") items := by
  have hindent : contents (units "td") (indent 16 ++ startTag "td" ::
      ((normalizeNewlines (utf16 text.toList)).map .char ++ ([endTag "td"] ++ items))) =
      contents (units "td") (startTag "td" ::
      ((normalizeNewlines (utf16 text.toList)).map .char ++ ([endTag "td"] ++ items))) := by
    refine contents_append ?_ _
    intro t ht
    simp [indent] at ht
  have hopens : Tag.opens (units "td") ⟨false, units "td", []⟩ = true := by decide
  have hclosed : Tag.opens (units "td") ⟨true, units "td", []⟩ = false := by decide
  simp only [cellItems, List.append_assoc, List.cons_append, List.nil_append] at hindent ⊢
  rw [hindent, startTag, contents, hopens, if_pos rfl, contents_map_char, endTag, contents, hclosed]
  simp [shownText, lead_map_append, lead, shown]

theorem contents_rowItems (texts : List String) (items : List Html.Item) :
    contents (units "td") (rowItems texts ++ items) =
      texts.map shown ++ contents (units "td") items := by
  have hopen : ∀ rest, contents (units "td")
      ((List.replicate 12 (.char 32) ++ [startTag "tr"]) ++ rest) =
      contents (units "td") rest := by
    intro rest
    refine contents_append ?_ rest
    intro t ht
    have htag : t = ⟨false, units "tr", []⟩ := by simpa [startTag] using ht
    rw [htag]
    decide
  have hclose : ∀ rest, contents (units "td")
      ((indent 12 ++ endTag "tr" :: indent 12) ++ rest) = contents (units "td") rest := by
    intro rest
    refine contents_append ?_ rest
    intro t ht
    have htag : t = ⟨true, units "tr", []⟩ := by simpa [indent, endTag] using ht
    rw [htag]
    decide
  have hcells : ∀ rest, contents (units "td") (texts.flatMap cellItems ++ rest) =
      texts.map shown ++ contents (units "td") rest := by
    intro rest
    induction texts with
    | nil => rfl
    | cons text texts ih =>
      rw [List.flatMap_cons, List.append_assoc, contents_cellItems, ih]
      rfl
  have hrow : rowItems texts ++ items = (List.replicate 12 (.char 32) ++ [startTag "tr"]) ++
      (texts.flatMap cellItems ++ ((indent 12 ++ endTag "tr" :: indent 12) ++ items)) := by
    simp [rowItems]
  rw [hrow, hopen, hcells, hclose]

theorem contents_rows (rows : List (List String)) :
    contents (units "td") (rows.flatMap rowItems) = rows.flatMap fun texts => texts.map shown := by
  induction rows with
  | nil => rfl
  | cons texts rows ih => rw [List.flatMap_cons, contents_rowItems, ih, List.flatMap_cons]

/-- A customer's name that would close the row and open a script. -/
def hostileRecord : Record where
  entries := [("customer_name", .str "</td></tr><script>&amp;'"), ("created_at", .null)]
  typed := by
    intro key v hlookup
    simp only [List.lookup_cons, List.lookup_nil] at hlookup
    split at hlookup
    · next hkey =>
      obtain rfl := Option.some.inj hlookup
      rw [beq_iff_eq.mp hkey]
      exact .inr (by decide)
    · split at hlookup
      · exact .inl (Option.some.inj hlookup).symm
      · cases hlookup

def plainFormats : Formats where
  floatToString := fun _ => ""
  numberFormat := fun _ => "0,00"
  numberFormat_zero := rfl
  date := fun s => s

end Artha.Exports
