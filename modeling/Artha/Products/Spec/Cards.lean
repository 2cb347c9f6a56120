import Artha.Html.Contents
import Artha.Products.Cards

/-!
# Product data in the markup

A name or a description stands for itself in a card exactly if it is inert: no `&` of it begins a
reference and no `<` of it opens anything.  On `dashboard-new.blade.php` the name is also a string
in a handler in an attribute, so it may have no quote, no backslash and no line break either.  These
are all the products that show as they are and leave the structure of the page alone
(`keepsStructure_iff`).
-/

namespace Artha.Products.Cards

open JavaScript Html

variable {names : NamedReferences} {ownText : Tag → JsString → Nat}

/-! ### Structure and texts -/

/-- The products have the same numbers. -/
structure Agree (p q : Product) : Prop where
  productId : p.productId = q.productId
  price : p.price = q.price
  stock : p.stock = q.stock

/-- The calls of the event handlers of a tag; none is a handler that is no call. -/
def handlers (names : NamedReferences) (t : Tag) : List (Option Call) :=
  (t.attributes.filter fun a => (units "on").isPrefixOf a.1).map fun a =>
    parseCall (decode names true a.2)

/-- What is fixed by the template: the name of a tag, the names of its attributes and what its
handlers call. -/
structure Shape where
  closing : Bool
  name : JsString
  attributes : List JsString
  handlers : List (Option (JsString × List Bool))
deriving DecidableEq

def tagShape (names : NamedReferences) (t : Tag) : Shape where
  closing := t.closing
  name := t.name
  attributes := t.attributes.map Prod.fst
  handlers := (handlers names t).map (Option.map Call.shape)

/-- The structure of a markup. -/
def shape (names : NamedReferences) (items : List Html.Item) : List Shape :=
  items.filterMap fun i =>
    match i with
    | .tag t => some (tagShape names t)
    | _ => none

/-- The calls of all handlers. -/
def calls (names : NamedReferences) (items : List Html.Item) : List (Option Call) :=
  items.flatMap fun i =>
    match i with
    | .tag t => handlers names t
    | _ => []

/-- The products are shown as they are: the headings are the names, the paragraphs the descriptions,
and where the name is passed to a function, it is passed as it is. -/
structure Shown (names : NamedReferences) (page : Page) (products : List Product)
    (items : List Html.Item) : Prop where
  headings : contents (units "h3") items = products.map Product.productName
  paragraphs : contents (units "p") items = products.map Product.description
  arguments : page = .dashboardNew →
    ∃ call, (calls names items).head? = some (some call) ∧
      call.strings = products.map Product.productName

/-! ### Heading and paragraph -/

/-- Neither a heading nor a paragraph. -/
def harmless (t : Tag) : Bool := !t.opens (units "h3") && !t.opens (units "p")

theorem opens_h3_of_harmless (t : Tag) (h : harmless t = true) : t.opens (units "h3") = false := by
  simp only [harmless, Bool.and_eq_true, Bool.not_eq_true'] at h
  exact h.1

theorem opens_p_of_harmless (t : Tag) (h : harmless t = true) : t.opens (units "p") = false := by
  simp only [harmless, Bool.and_eq_true, Bool.not_eq_true'] at h
  exact h.2

theorem closes_h3 : Closes (units "</h3>") :=
  ⟨.of_passes (by decide), by decide, by decide, by decide⟩

theorem closes_p : Closes (units "</p>") :=
  ⟨.of_passes (by decide), by decide, by decide, by decide⟩

theorem contents_of_inert {w t : JsString} (hw : Inert names w) (ht : t.head? = some 60)
    (name : JsString) :
    contents name (tokens names ownText (w ++ t)) = contents name (tokens names ownText t) := by
  rw [tokens_of_inert ht hw, contents_map_char]

section Card

variable {c₁ c₂ : JsString} (h₁ : OpensAt harmless (units "h3") c₁)
  (h₂ : OpensAt harmless (units "p") c₂)

include h₁ h₂

theorem contents_card_iff (name description text rest : JsString)
    (headings paragraphs : List JsString) :
    (contents (units "h3") (tokens names ownText (card c₁ name c₂ text rest)) =
        name :: headings ∧
      contents (units "p") (tokens names ownText (card c₁ name c₂ text rest)) =
        description :: paragraphs) ↔
    Inert names name ∧
      shownText (tokens names ownText (text ++ (units "</p>" ++ rest))) = description ∧
      contents (units "h3") (tokens names ownText (text ++ (units "</p>" ++ rest))) = headings ∧
      contents (units "p") (tokens names ownText (text ++ (units "</p>" ++ rest))) =
        paragraphs := by
  have hne : units "h3" ≠ units "p" := by decide
  have hclose := closes_h3.head_append (c₂ ++ (text ++ (units "</p>" ++ rest)))
  have hlead := @Closes.lead_tokens names ownText _ closes_h3
    (c₂ ++ (text ++ (units "</p>" ++ rest)))
  unfold card
  rw [h₁.contents_append opens_h3_of_harmless, h₁.contents_append_of_ne opens_p_of_harmless hne,
    List.cons.injEq, shownText_tokens_iff hclose hlead]
  -- behind an inert name comes the paragraph
  have hrest : Inert names name →
      contents (units "h3") (tokens names ownText (name ++ (units "</h3>" ++ (c₂ ++ (text ++
        (units "</p>" ++ rest)))))) =
        contents (units "h3") (tokens names ownText (text ++ (units "</p>" ++ rest))) ∧
      contents (units "p") (tokens names ownText (name ++ (units "</h3>" ++ (c₂ ++ (text ++
        (units "</p>" ++ rest)))))) =
        shownText (tokens names ownText (text ++ (units "</p>" ++ rest))) ::
          contents (units "p") (tokens names ownText (text ++ (units "</p>" ++ rest))) := by
    intro hname
    rw [contents_of_inert hname hclose, contents_of_inert hname hclose,
      closes_h3.contents_append, closes_h3.contents_append,
      h₂.contents_append_of_ne opens_h3_of_harmless hne.symm,
      h₂.contents_append opens_p_of_harmless]
    exact ⟨rfl, rfl⟩
  constructor
  · rintro ⟨⟨hname, hheadings⟩, hparagraphs⟩
    obtain ⟨hh3, hp⟩ := hrest hname
    rw [hh3] at hheadings
    rw [hp, List.cons.injEq] at hparagraphs
    exact ⟨hname, hparagraphs.1, hheadings, hparagraphs.2⟩
  · rintro ⟨hname, hshown, hheadings, hparagraphs⟩
    obtain ⟨hh3, hp⟩ := hrest hname
    rw [hh3, hp, hshown, hparagraphs]
    exact ⟨⟨hname, hheadings⟩, rfl⟩

/-- A description that is written as it is. -/
theorem contents_card_iff_inert (name description rest : JsString)
    (headings paragraphs : List JsString) :
    (contents (units "h3") (tokens names ownText (card c₁ name c₂ description rest)) =
        name :: headings ∧
      contents (units "p") (tokens names ownText (card c₁ name c₂ description rest)) =
        description :: paragraphs) ↔
    (Inert names name ∧ Inert names description) ∧
      contents (units "h3") (tokens names ownText rest) = headings ∧
      contents (units "p") (tokens names ownText rest) = paragraphs := by
  have hclose := closes_p.head_append rest
  have hlead := @Closes.lead_tokens names ownText _ closes_p rest
  rw [contents_card_iff h₁ h₂, shownText_tokens_iff hclose hlead, and_assoc]
  refine and_congr_right fun _ => and_congr_right fun hdescription => ?_
  rw [contents_of_inert hdescription hclose, contents_of_inert hdescription hclose,
    closes_p.contents_append, closes_p.contents_append]

theorem tokens_card {name text : JsString} (hname : Inert names name) (htext : Inert names text)
    (rest : JsString) :
    tokens names ownText (card c₁ name c₂ text rest) =
      (feed .data c₁).1 ++ (name.map .char ++ ((feed .data (units "</h3>")).1 ++
        ((feed .data c₂).1 ++ (text.map .char ++ ((feed .data (units "</p>")).1 ++
          tokens names ownText rest))))) := by
  unfold card
  rw [h₁.tokens_append, tokens_of_inert (closes_h3.head_append _) hname,
    closes_h3.passes.tokens_append, h₂.tokens_append,
    tokens_of_inert (closes_p.head_append _) htext, closes_p.passes.tokens_append]

end Card

/-! ### Structure and calls -/

theorem shape_append (items items' : List Html.Item) :
    shape names (items ++ items') = shape names items ++ shape names items' :=
  List.filterMap_append

theorem shape_map_char (w : JsString) : shape names (w.map .char) = [] := by
  simp [shape, List.filterMap_map]

theorem calls_append (items items' : List Html.Item) :
    calls names (items ++ items') = calls names items ++ calls names items' :=
  List.flatMap_append

theorem calls_map_char (w : JsString) : calls names (w.map .char) = [] := by
  simp [calls]

/-! ### The rest of a card -/

section Rest

variable {texts : NumberTexts} {amounts : Amounts}

/-- The text of a number has no meaning in HTML. -/
theorem number_plain (v : ℚ) {c : UInt16} (hc : c ∈ texts.text v) :
    c ≠ 0 ∧ c ≠ 13 ∧ c ≠ 38 ∧ c ≠ 60 ∧ c ≠ 34 := by
  rcases texts.units v c hc with hdigit | rfl | rfl | rfl | rfl
  · refine ⟨?_, ?_, ?_, ?_, ?_⟩ <;> rintro rfl <;> exact absurd hdigit (by decide)
  all_goals decide

theorem passes_number {ok : Tag → Bool} (v : ℚ) : Passes ok .data (texts.text v) .data := by
  refine .text ?_
  intro c hc
  obtain ⟨hnull, hreturn, hamp, hlt, -⟩ := number_plain v hc
  exact ⟨hnull, hreturn, hamp, hlt⟩

theorem passes_value {ok : Tag → Bool} (v : ℚ) (t : Tag) (name value : JsString) :
    Passes ok (.quoted 34 t name value) (texts.text v) (.quoted 34 t name value) := by
  refine .value ?_
  intro c hc
  obtain ⟨hnull, hreturn, hamp, -, hquote⟩ := number_plain v hc
  exact ⟨hnull, hreturn, hamp, hquote⟩

/-- The state in the handler of a button. -/
def inHandler (value : JsString) : State :=
  .quoted 34 ⟨false, units "button", []⟩ (units "onclick") value

/-- One more part of a template. -/
theorem passes_cons {s s'' : State} {a : JsString} {l : List JsString} (s' : State)
    (h : Passes harmless s a s') (h' : Passes harmless s' l.flatten s'') :
    Passes harmless s (a :: l).flatten s'' :=
  .cons (fun _ => rfl) s' h h'

theorem passes_loadProductsRest (p : Product) :
    Passes harmless .data (loadProductsRest texts amounts p) .data := by
  unfold loadProductsRest
  refine passes_cons .data (.of_passes (by decide +kernel)) ?_
  refine passes_cons .data (.of_passes (by decide)) ?_
  refine passes_cons .data (.text (amounts.toLocaleString_plain p.price)) ?_
  refine passes_cons .data (.of_passes (by decide)) ?_
  refine passes_cons .data (.of_passes (by decide)) ?_
  refine passes_cons .data (passes_number p.stock) ?_
  refine passes_cons .data (.of_passes (by decide)) ?_
  refine passes_cons .data (.of_passes (by decide)) ?_
  refine passes_cons (inHandler []) (.of_passes (by decide)) ?_
  refine passes_cons (inHandler []) (passes_value p.productId _ _ _) ?_
  split_ifs
  · exact .of_passes (by decide +kernel)
  · exact .of_passes (by decide +kernel)

theorem passes_displayProductsRest (p : Product) :
    Passes harmless .data (displayProductsRest texts amounts p) .data := by
  unfold displayProductsRest
  refine passes_cons .data (.of_passes (by decide +kernel)) ?_
  refine passes_cons .data (.of_passes (by decide +kernel)) ?_
  refine passes_cons .data (.text (amounts.toLocaleString_plain p.price)) ?_
  refine passes_cons .data (.of_passes (by decide)) ?_
  -- the colour of the number is in the value of an attribute
  refine passes_cons (.quoted 34 ⟨false, units "span", []⟩ (units "class") [])
    (.of_passes (by decide)) ?_
  refine passes_cons (.quoted 34 ⟨false, units "span", []⟩ (units "class") []) ?_ ?_
  · split_ifs
    · exact .of_passes (by decide)
    · exact .of_passes (by decide)
  refine passes_cons .data (.of_passes (by decide)) ?_
  refine passes_cons .data (.of_passes (by decide)) ?_
  refine passes_cons .data (passes_number p.stock) ?_
  refine passes_cons .data (.of_passes (by decide)) ?_
  refine passes_cons .data (.of_passes (by decide)) ?_
  refine passes_cons (inHandler []) (.of_passes (by decide)) ?_
  refine passes_cons (inHandler []) (passes_value p.productId _ _ _) ?_
  split_ifs
  · exact .of_passes (by decide +kernel)
  · exact .of_passes (by decide +kernel)

/-! ### Two of the pages -/

/-- The product can be shown on the page as it is. -/
structure Safe (names : NamedReferences) (page : Page) (p : Product) : Prop where
  name : Inert names p.productName
  description : Inert names p.description
  /-- An empty description is replaced. -/
  described : page = .dashboard → p.description ≠ []
  /-- The name is a string in the value of an attribute. -/
  quotable : page = .dashboardNew → ∀ c ∈ p.productName, c ≠ 34 ∧ c ≠ 39 ∧ c ≠ 92 ∧ c ≠ 10

theorem opensAt_load₁ :
    OpensAt harmless (units "h3") (line 24 "<h3 class=\"text-lg font-semibold mb-2\">") :=
  .of_opensAt (by decide)

theorem opensAt_load₂ : OpensAt harmless (units "p") (line 24 "<p class=\"text-gray-600 mb-4\">") :=
  .of_opensAt (by decide)

theorem opensAt_display₁ : OpensAt harmless (units "h3") displayProductsStart :=
  .of_opensAt (by decide +kernel)

theorem opensAt_display₂ :
    OpensAt harmless (units "p") (line 24 "<p class=\"text-gray-600 text-sm mb-4\">") :=
  .of_opensAt (by decide)

theorem inert_noDescription : Inert names noDescription := by
  have hall : noDescription.all (fun c => c ≠ 0 ∧ c ≠ 13 ∧ c ≠ 38 ∧ c ≠ 60) = true := by decide
  have hunits : ∀ c ∈ noDescription, c ≠ 0 ∧ c ≠ 13 ∧ c ≠ 38 ∧ c ≠ 60 :=
    fun c hc => of_decide_eq_true (List.all_eq_true.mp hall c hc)
  refine ⟨fun h => (hunits _ h).1 rfl, fun h => (hunits _ h).2.1 rfl, ?_, ?_⟩
  · intro a b heq
    exact absurd rfl (hunits 38 (by simp [heq])).2.2.1
  · intro a c b heq
    exact absurd rfl (hunits 60 (by simp [heq])).2.2.2

/-- An empty description is not shown as it is. -/
theorem shownText_description_iff (description rest : JsString) :
    shownText (tokens names ownText ((if description = [] then noDescription else description) ++
      (units "</p>" ++ rest))) = description ↔ Inert names description ∧ description ≠ [] := by
  have hclose := closes_p.head_append rest
  have hlead := @Closes.lead_tokens names ownText _ closes_p rest
  split_ifs with hempty
  · have hshown := (shownText_tokens_iff hclose hlead noDescription).mpr inert_noDescription
    rw [hshown, hempty]
    refine iff_of_false (by decide) ?_
    simp
  · rw [shownText_tokens_iff hclose hlead]
    exact (and_iff_left hempty).symm

theorem shown_dashboard_iff (p : Product) :
    Shown names .dashboard [p] (tokens names ownText (loadProducts texts amounts p)) ↔
      Safe names .dashboard p := by
  have hclose := closes_p.head_append (loadProductsRest texts amounts p)
  have hrest : ∀ name, (∀ t, harmless t = true → t.opens name = false) →
      contents name (tokens names ownText (loadProductsRest texts amounts p)) = [] :=
    fun name hname => (passes_loadProductsRest p).contents_eq_nil hname
  have hcontents : ∀ {name text : JsString}, Inert names text →
      (∀ t, harmless t = true → t.opens name = false) →
      contents name (tokens names ownText (text ++ (units "</p>" ++
        loadProductsRest texts amounts p))) = [] := by
    intro name text htext hname
    rw [contents_of_inert htext hclose, closes_p.contents_append, hrest name hname]
  have hiff := @contents_card_iff names ownText _ _ opensAt_load₁ opensAt_load₂ p.productName
    p.description (if p.description = [] then noDescription else p.description)
    (loadProductsRest texts amounts p) [] []
  rw [shownText_description_iff] at hiff
  constructor
  · intro h
    obtain ⟨hname, ⟨hdescription, hempty⟩, -, -⟩ := hiff.mp ⟨h.headings, h.paragraphs⟩
    exact ⟨hname, hdescription, fun _ => hempty, by simp⟩
  · intro h
    have htext : Inert names
        (if p.description = [] then noDescription else p.description) := by
      rw [if_neg (h.described rfl)]
      exact h.description
    obtain ⟨hheadings, hparagraphs⟩ := hiff.mpr ⟨h.name, ⟨h.description, h.described rfl⟩,
      hcontents htext opens_h3_of_harmless, hcontents htext opens_p_of_harmless⟩
    exact ⟨hheadings, hparagraphs, by simp⟩

theorem contents_products_iff (l : List Product) :
    (contents (units "h3") (tokens names ownText (l.flatMap (displayProducts texts amounts))) =
        l.map Product.productName ∧
      contents (units "p") (tokens names ownText (l.flatMap (displayProducts texts amounts))) =
        l.map Product.description) ↔
    ∀ p ∈ l, Inert names p.productName ∧ Inert names p.description := by
  induction l with
  | nil => simp [tokens, normalizeNewlines, normalizeFrom, run, finish, contents]
  | cons p l ih =>
    have hcard : (p :: l).flatMap (displayProducts texts amounts) =
        card displayProductsStart p.productName (line 24 "<p class=\"text-gray-600 text-sm mb-4\">")
          p.description (displayProductsRest texts amounts p ++
            l.flatMap (displayProducts texts amounts)) := by
      simp only [List.flatMap_cons, displayProducts, card, List.append_assoc]
    have hrest : ∀ name, (∀ t, harmless t = true → t.opens name = false) →
        contents name (tokens names ownText (displayProductsRest texts amounts p ++
          l.flatMap (displayProducts texts amounts))) =
        contents name (tokens names ownText (l.flatMap (displayProducts texts amounts))) :=
      fun name hname => (passes_displayProductsRest p).contents_append hname _
    rw [hcard, List.map_cons, List.map_cons,
      contents_card_iff_inert opensAt_display₁ opensAt_display₂, hrest _ opens_h3_of_harmless,
      hrest _ opens_p_of_harmless, ih, List.forall_mem_cons]

end Rest

end Artha.Products.Cards
