import Artha.Products.Spec.RenderProducts

/-!
# The structure of the product pages

For products with the same numbers the markup has the same structure, whatever their names and
descriptions are, exactly if each of them can be shown as it is.
-/

namespace Artha.Products.Cards

open JavaScript Html

variable {names : NamedReferences} {ownText : Tag → JsString → Nat} {texts : NumberTexts}
  {amounts : Amounts}

/-- The structure is the same for both lists, and both show as they are. -/
structure KeepsStructure (names : NamedReferences) (ownText : Tag → JsString → Nat)
    (texts : NumberTexts) (amounts : Amounts) (page : Page) (l l' : List Product) : Prop where
  shapes : (page.fragments texts amounts l).map (fun f => shape names (tokens names ownText f.2)) =
    (page.fragments texts amounts l').map fun f => shape names (tokens names ownText f.2)
  shown : ∀ f ∈ page.fragments texts amounts l, Shown names page f.1 (tokens names ownText f.2)
  shown' : ∀ f ∈ page.fragments texts amounts l', Shown names page f.1 (tokens names ownText f.2)

/-! ### The rest of a card has no names -/

namespace Agree

variable {p q : Product}

theorem loadProductsRest_eq (h : Agree p q) :
    loadProductsRest texts amounts p = loadProductsRest texts amounts q := by
  rw [loadProductsRest, loadProductsRest, h.productId, h.price, h.stock]

theorem displayProductsRest_eq (h : Agree p q) :
    displayProductsRest texts amounts p = displayProductsRest texts amounts q := by
  rw [displayProductsRest, displayProductsRest, h.productId, h.price, h.stock]

theorem renderProductsMiddle_eq (h : Agree p q) :
    renderProductsMiddle texts amounts p = renderProductsMiddle texts amounts q := by
  rw [renderProductsMiddle, renderProductsMiddle, h.productId, h.price, h.stock]

theorem renderProductsRest_eq (h : Agree p q) :
    renderProductsRest texts p = renderProductsRest texts q := by
  rw [renderProductsRest, renderProductsRest, h.price, h.stock]

theorem handlerStart_eq (h : Agree p q) : handlerStart texts p = handlerStart texts q := by
  rw [handlerStart, handlerStart, h.productId]

theorem handlerEnd_eq (h : Agree p q) : handlerEnd texts p = handlerEnd texts q := by
  rw [handlerEnd, handlerEnd, h.price]

end Agree

/-! ### Equal structures -/

section Shapes

variable {c₁ c₂ : JsString} (h₁ : OpensAt harmless (units "h3") c₁)
  (h₂ : OpensAt harmless (units "p") c₂)

include h₁ h₂

/-- Inert texts leave no trace in the structure. -/
theorem shape_card {name text : JsString} (hname : Inert names name) (htext : Inert names text)
    (rest : JsString) :
    shape names (tokens names ownText (card c₁ name c₂ text rest)) =
      shape names (feed .data c₁).1 ++ (shape names (feed .data (units "</h3>")).1 ++
        (shape names (feed .data c₂).1 ++ (shape names (feed .data (units "</p>")).1 ++
          shape names (tokens names ownText rest)))) := by
  rw [tokens_card h₁ h₂ hname htext]
  simp only [shape_append, shape_map_char, List.nil_append]

end Shapes

theorem shape_dashboard {p q : Product} (h : Agree p q) (hp : Safe names .dashboard p)
    (hq : Safe names .dashboard q) :
    shape names (tokens names ownText (loadProducts texts amounts p)) =
      shape names (tokens names ownText (loadProducts texts amounts q)) := by
  rw [loadProducts, loadProducts, if_neg (hp.described rfl), if_neg (hq.described rfl),
    shape_card opensAt_load₁ opensAt_load₂ hp.name hp.description,
    shape_card opensAt_load₁ opensAt_load₂ hq.name hq.description, h.loadProductsRest_eq]

theorem shape_products {l l' : List Product} (h : List.Forall₂ Agree l l')
    (hl : ∀ p ∈ l, Safe names .products p) (hl' : ∀ p ∈ l', Safe names .products p) :
    shape names (tokens names ownText (l.flatMap (displayProducts texts amounts))) =
      shape names (tokens names ownText (l'.flatMap (displayProducts texts amounts))) := by
  have hcard : ∀ (p : Product) (l : List Product), Safe names .products p →
      shape names (tokens names ownText ((p :: l).flatMap (displayProducts texts amounts))) =
        shape names (feed .data displayProductsStart).1 ++
          (shape names (feed .data (units "</h3>")).1 ++
            (shape names (feed .data (line 24 "<p class=\"text-gray-600 text-sm mb-4\">")).1 ++
              (shape names (feed .data (units "</p>")).1 ++
                (shape names (feed .data (displayProductsRest texts amounts p)).1 ++
                  shape names (tokens names ownText
                    (l.flatMap (displayProducts texts amounts))))))) := by
    intro p l hp
    have hflat : (p :: l).flatMap (displayProducts texts amounts) =
        card displayProductsStart p.productName (line 24 "<p class=\"text-gray-600 text-sm mb-4\">")
          p.description (displayProductsRest texts amounts p ++
            l.flatMap (displayProducts texts amounts)) := by
      simp only [List.flatMap_cons, displayProducts, card, List.append_assoc]
    rw [hflat, shape_card opensAt_display₁ opensAt_display₂ hp.name hp.description,
      (passes_displayProductsRest p).tokens_append, shape_append]
  induction h with
  | nil => rfl
  | cons hpq _ ih =>
    rw [List.forall_mem_cons] at hl hl'
    rw [hcard _ _ hl.1, hcard _ _ hl'.1, ih hl.2 hl'.2, hpq.displayProductsRest_eq]

/-- The handlers differ in the name only. -/
theorem tagShape_setFirst {t : Tag} {v v' : JsString} {call call' : Call}
    (ht : t.attributes.head? = some (units "onclick", v))
    (hv : parseCall (decode names true v) = some call)
    (hv' : parseCall (decode names true v') = some call') (hshape : call.shape = call'.shape) :
    tagShape names t = tagShape names (t.setFirst v') := by
  obtain ⟨attributes, hattributes⟩ := List.head?_eq_some_iff.mp ht
  have hattributes' : (t.setFirst v').attributes = (units "onclick", v') :: attributes := by
    rw [Tag.setFirst, hattributes]
    rfl
  rw [tagShape, tagShape, handlers_of_onclick hattributes, handlers_of_onclick hattributes', hv,
    hv', hattributes, hattributes']
  simp only [List.map_cons, Option.map_some, hshape]
  rfl

theorem shape_dashboardNew {p q : Product} (h : Agree p q) (hp : Safe names .dashboardNew p)
    (hq : Safe names .dashboardNew q) :
    shape names (tokens names ownText (renderProducts texts amounts p)) =
      shape names (tokens names ownText (renderProducts texts amounts q)) := by
  have hbefore : shape names (beforeButton texts amounts p) =
      shape names (beforeButton texts amounts q) := by
    simp only [beforeButton, shape_append, shape_map_char, List.nil_append,
      h.renderProductsMiddle_eq]
  obtain ⟨rest, hrest⟩ := @exists_renderProductsRest texts p
  have hrest' : renderProductsRest texts q = handlerEnd texts q ++ 34 :: rest := by
    rw [← h.renderProductsRest_eq, ← h.handlerEnd_eq, hrest]
  have hquote : 34 ∉ p.productName := fun hmem => (hp.quotable rfl 34 hmem).1 rfl
  have hquote' : 34 ∉ q.productName := fun hmem => (hq.quotable rfl 34 hmem).1 rfl
  rw [tokens_renderProducts hp.name hp.description, tokens_renderProducts hq.name hq.description,
    shape_append, shape_append, hbefore, run_handler_of_not_mem hp.name.noNull hquote hrest,
    run_handler_of_not_mem hq.name.noNull hquote' hrest']
  congr 1
  -- the two buttons are the same but for the value of the first attribute
  have hfirst := @parseCall_decode names texts p hp.name (hp.quotable rfl)
  have hfirst' := @parseCall_decode names texts q hq.name (hq.quotable rfl)
  generalize handlerStart texts p ++ (p.productName ++ handlerEnd texts p) = v at hfirst ⊢
  generalize handlerStart texts q ++ (q.productName ++ handlerEnd texts q) = v' at hfirst' ⊢
  have hin : (State.beforeAttribute (button v)).InAttributes :=
    ⟨by simp, button v, rfl, List.cons_ne_nil _ _, by
      show (!false && rawElements.any fun name => units "button" = units name) = false
      decide⟩
  have hset : (State.beforeAttribute (button v)).setFirst v' = .beforeAttribute (button v') := rfl
  have hrun := @run_setFirst names ownText _ hin v' rest
  have hhead := @run_of_head names ownText (.beforeAttribute (button v)) _ _ rfl rfl rest
  rw [hset] at hrun
  rcases hrun with ⟨hnil, hnil'⟩ | ⟨t, items, hitems, hitems'⟩
  · rw [hnil, hnil']
  · have ht : t.attributes.head? = some (units "onclick", v) := by
      rcases hhead with hnil | ⟨t', items', heq, ht'⟩
      · rw [hitems] at hnil
        cases hnil
      · rw [hitems] at heq
        obtain ⟨hsame, -⟩ := List.cons.inj heq
        rw [Html.Item.tag.inj hsame]
        exact ht'
    have htag : tagShape names t = tagShape names (t.setFirst v') :=
      tagShape_setFirst ht hfirst hfirst' rfl
    rw [hitems, hitems']
    show tagShape names t :: shape names items = tagShape names (t.setFirst v') :: shape names items
    rw [htag]

/-! ### The pages -/

/-- What is shown as it is. -/
theorem shown_fragments_iff (page : Page) (l : List Product) :
    (∀ f ∈ page.fragments texts amounts l, Shown names page f.1 (tokens names ownText f.2)) ↔
      ∀ p ∈ l, Safe names page p := by
  cases page with
  | dashboard =>
    simp only [Page.fragments, Page.cardOf, List.forall_mem_map, shown_dashboard_iff]
  | dashboardNew =>
    simp only [Page.fragments, Page.cardOf, List.forall_mem_map, shown_dashboardNew_iff]
  | products =>
    have hsafe : ∀ p : Product, Safe names .products p ↔
        Inert names p.productName ∧ Inert names p.description :=
      fun p => ⟨fun h => ⟨h.name, h.description⟩, fun h => ⟨h.1, h.2, by simp, by simp⟩⟩
    simp only [Page.fragments, Page.cardOf, hsafe]
    split_ifs with hempty
    · simp [hempty]
    · rw [List.forall_mem_singleton, ← contents_products_iff]
      exact ⟨fun h => ⟨h.headings, h.paragraphs⟩, fun h => ⟨h.1, h.2, by simp⟩⟩

/-- Cards of their own have equal structures one by one. -/
theorem map_shape_eq {cardOf : Product → JsString} {l l' : List Product}
    (h : List.Forall₂ Agree l l') {safe : Product → Prop} (hl : ∀ p ∈ l, safe p)
    (hl' : ∀ p ∈ l', safe p)
    (hcard : ∀ p q, Agree p q → safe p → safe q →
      shape names (tokens names ownText (cardOf p)) =
        shape names (tokens names ownText (cardOf q))) :
    l.map (fun p => shape names (tokens names ownText (cardOf p))) =
      l'.map fun p => shape names (tokens names ownText (cardOf p)) := by
  induction h with
  | nil => rfl
  | cons hpq _ ih =>
    rw [List.forall_mem_cons] at hl hl'
    rw [List.map_cons, List.map_cons, hcard _ _ hpq hl.1 hl'.1, ih hl.2 hl'.2]

theorem shapes_fragments (page : Page) {l l' : List Product} (h : List.Forall₂ Agree l l')
    (hl : ∀ p ∈ l, Safe names page p) (hl' : ∀ p ∈ l', Safe names page p) :
    (page.fragments texts amounts l).map (fun f => shape names (tokens names ownText f.2)) =
      (page.fragments texts amounts l').map fun f => shape names (tokens names ownText f.2) := by
  cases page with
  | dashboard =>
    simp only [Page.fragments, Page.cardOf, List.map_map, Function.comp_def]
    exact map_shape_eq h hl hl' fun p q hpq hp hq => shape_dashboard hpq hp hq
  | dashboardNew =>
    simp only [Page.fragments, Page.cardOf, List.map_map, Function.comp_def]
    exact map_shape_eq h hl hl' fun p q hpq hp hq => shape_dashboardNew hpq hp hq
  | products =>
    have hshape := @shape_products names ownText texts amounts l l' h hl hl'
    cases h with
    | nil => rfl
    | cons _ _ => exact congrArg (fun s => [s]) hshape

/-- Names and descriptions leave the structure alone and show as they are exactly if each of them
can be shown as it is. -/
theorem keepsStructure_iff (page : Page) {l l' : List Product} (h : List.Forall₂ Agree l l') :
    KeepsStructure names ownText texts amounts page l l' ↔
      (∀ p ∈ l, Safe names page p) ∧ ∀ p ∈ l', Safe names page p := by
  constructor
  · intro hkeeps
    exact ⟨(shown_fragments_iff page l).mp hkeeps.shown,
      (shown_fragments_iff page l').mp hkeeps.shown'⟩
  · rintro ⟨hl, hl'⟩
    exact ⟨shapes_fragments page h hl hl', (shown_fragments_iff page l).mpr hl,
      (shown_fragments_iff page l').mpr hl'⟩

/-- Amounts without separators. -/
def digitsOnly : Amounts where
  toLocaleString := NumberTexts.integers.text
  formatCurrency := NumberTexts.integers.text
  toLocaleString_plain := by
    intro v c hc
    obtain ⟨hnull, hreturn, hamp, hlt, -⟩ := number_plain v hc
    exact ⟨hnull, hreturn, hamp, hlt⟩
  formatCurrency_plain := by
    intro v c hc
    obtain ⟨hnull, hreturn, hamp, hlt, -⟩ := number_plain v hc
    exact ⟨hnull, hreturn, hamp, hlt⟩

/-- A product with that name. -/
def named (name : String) : Product := ⟨1, units name, units "d", 5, 2⟩

theorem inert_of_letters {w : JsString} (h : ∀ c ∈ w, isLetter c = true) :
    Inert names w := by
  refine ⟨fun h0 => absurd (h 0 h0) (by decide), fun h0 => absurd (h 13 h0) (by decide), ?_, ?_⟩
  · intro a b heq
    exact absurd (h 38 (by simp [heq])) (by decide)
  · intro a c b heq
    exact absurd (h 60 (by simp [heq])) (by decide)

theorem keepsStructure_letters :
    List.Forall₂ Agree [named "a"] [named "b"] ∧
      KeepsStructure .escapes (fun _ _ => 0) .integers digitsOnly .dashboardNew [named "a"]
        [named "b"] := by
  have hagree : List.Forall₂ Agree [named "a"] [named "b"] := .cons ⟨rfl, rfl, rfl⟩ .nil
  have hsafe : ∀ name : String, (∀ c ∈ units name, isLetter c = true) →
      Safe .escapes .dashboardNew (named name) := by
    intro name hname
    have hdescription : ∀ c ∈ units "d", isLetter c = true := List.all_eq_true.mp (by decide)
    refine ⟨inert_of_letters hname, inert_of_letters hdescription, by simp, ?_⟩
    intro _ c hc
    have hletter := hname c hc
    refine ⟨?_, ?_, ?_, ?_⟩ <;> rintro rfl <;> exact absurd hletter (by decide)
  refine ⟨hagree, (keepsStructure_iff .dashboardNew hagree).mpr ⟨?_, ?_⟩⟩
  · rw [List.forall_mem_singleton]
    exact hsafe "a" (List.all_eq_true.mp (by decide))
  · rw [List.forall_mem_singleton]
    exact hsafe "b" (List.all_eq_true.mp (by decide))

/-- Markup in a name becomes an element of the page. -/
theorem keepsStructure_markup :
    List.Forall₂ Agree [named "<b>"] [named "b"] ∧
      ¬KeepsStructure .escapes (fun _ _ => 0) .integers digitsOnly .dashboard [named "<b>"]
        [named "b"] := by
  refine ⟨.cons ⟨rfl, rfl, rfl⟩ .nil, ?_⟩
  intro h
  have hlength := congrArg (fun shapes => shapes.map List.length) h.shapes
  exact absurd hlength (by decide +kernel)

end Artha.Products.Cards
