import Artha.Products.Catalog

/-!
# What the product pages show

If no read of a description throws, every change shows the stable sort of the products that match,
and what was shown before does not matter.  On the public page that is always so.  On the other one
it is so exactly if every product has a description or a name that matches: otherwise the handler
throws, and the page keeps the list of an earlier choice.
-/

namespace Artha.Products

open Binary64 JavaScript

variable (L : Locale)

/-- The name or the description of a product contains the text, in lower case. -/
def contains (text : JsString) (p : Product) : Bool :=
  includes (L.toLowerCase p.productName) (L.toLowerCase text) ||
    p.description.any fun d => includes (L.toLowerCase d) (L.toLowerCase text)

/-- One list is shown for a text and an order, whatever the changes before, and it is the stable
sort of the products that contain the text. -/
def Exact (site : Site) (allProducts : List Product) (text : JsString) (choice : SortBy) : Prop :=
  ∃ shown, StableSort (notAfter (compare L choice)) (allProducts.filter (contains L text)) shown ∧
    ∀ changes ≠ [], (after L site allProducts changes).searchInput = text →
      (after L site allProducts changes).sortSelect = choice →
      (after L site allProducts changes).displayed = shown

variable {L}

/-! ### The orders -/

theorem totalPreorder_sub {f : Product → { v : ℚ // Representable v }} :
    TotalPreorder (notAfter fun a b => Number.sub (.finite (f a).1) (.finite (f b).1)) := by
  have hle : ∀ a b,
      notAfter (fun a b => Number.sub (.finite (f a).1) (.finite (f b).1)) a b = true ↔
        (f a).1 ≤ (f b).1 := by
    intro a b
    rw [notAfter, Bool.not_eq_true', ← Bool.not_eq_true,
      Number.lt_zero_sub_iff (f a).2 (f b).2, not_lt]
  refine ⟨?_, ?_⟩
  · intro a b c hab hbc
    rw [hle] at hab hbc ⊢
    exact hab.trans hbc
  · intro a b
    rw [Bool.or_eq_true, hle, hle]
    exact le_total _ _

theorem totalPreorder_compare (choice : SortBy) : TotalPreorder (notAfter (compare L choice)) := by
  cases choice with
  | name =>
    exact ⟨fun a b c => L.preorder.trans a.productName b.productName c.productName,
      fun a b => L.preorder.total a.productName b.productName⟩
  | priceAsc => exact totalPreorder_sub
  | priceDesc => exact (totalPreorder_sub (f := Product.price)).swap
  | stock => exact (totalPreorder_sub (f := Product.stock)).swap

/-! ### The filter -/

theorem filter_eq_some {α : Type} {f : α → Option Bool} {p : α → Bool} {l : List α}
    (h : ∀ a ∈ l, f a = some (p a)) : filter f l = some (l.filter p) := by
  induction l with
  | nil => rfl
  | cons a l ih =>
    have hrest := ih fun b hb => h b (List.mem_cons_of_mem a hb)
    rw [filter, h a List.mem_cons_self, hrest, List.filter_cons]
    rfl

theorem filter_eq_none {α : Type} {f : α → Option Bool} {l : List α} {a : α} (ha : a ∈ l)
    (h : f a = none) : filter f l = none := by
  induction l with
  | nil => cases ha
  | cons b l ih =>
    rw [filter]
    rcases List.mem_cons.mp ha with rfl | hmem
    · rw [h]
      rfl
    · rw [ih hmem]
      cases f b <;> rfl

theorem includes_nil (s : JsString) : includes s [] = true := by
  simp [includes]

theorem includes_nil_iff (t : JsString) : includes [] t = true ↔ t = [] := by
  simp [includes]

/-- The public page's test never throws, and is the one for the text. -/
theorem keeps_publicProducts (text : JsString) (p : Product) :
    keeps L (L.toLowerCase text) .publicProducts p = some (contains L text p) := by
  rw [keeps, contains]
  cases hname : includes (L.toLowerCase p.productName) (L.toLowerCase text) with
  | true => rfl
  | false =>
    -- an empty description contains only what the name contains, too
    have hempty : includes (L.toLowerCase []) (L.toLowerCase text) = false := by
      rw [L.toLowerCase_nil, Bool.eq_false_iff]
      intro h
      rw [(includes_nil_iff _).mp h, includes_nil] at hname
      cases hname
    cases p.description with
    | none => rfl
    | some d =>
      by_cases hd : d = []
      · simp [hd, hempty]
      · simp [hd]

/-- Where the products page's test does not throw, it is the one for the text. -/
theorem keeps_products {text : JsString} {p : Product}
    (h : includes (L.toLowerCase p.productName) (L.toLowerCase text) = true ∨
      p.description ≠ none) :
    keeps L (L.toLowerCase text) .products p = some (contains L text p) := by
  rw [keeps, contains]
  cases hname : includes (L.toLowerCase p.productName) (L.toLowerCase text) with
  | true => rfl
  | false =>
    rcases h with htrue | hdescription
    · rw [hname] at htrue
      cases htrue
    · obtain ⟨d, hd⟩ := Option.ne_none_iff_exists'.mp hdescription
      simp [hd]

theorem keeps_products_eq_none {text : JsString} {p : Product}
    (hname : includes (L.toLowerCase p.productName) (L.toLowerCase text) = false)
    (hdescription : p.description = none) : keeps L (L.toLowerCase text) .products p = none := by
  simp [keeps, hname, hdescription]

/-! ### Runs -/

theorem controls_filterAndSortProducts (site : Site) (allProducts : List Product) (page : Page) :
    (filterAndSortProducts L site allProducts page).searchInput = page.searchInput ∧
      (filterAndSortProducts L site allProducts page).sortSelect = page.sortSelect := by
  unfold filterAndSortProducts
  split <;> exact ⟨rfl, rfl⟩

/-- A change is a redraw with one of the controls set. -/
theorem change_eq (site : Site) (allProducts : List Product) (page : Page) (c : Change) :
    ∃ page', change L site allProducts page c = filterAndSortProducts L site allProducts page' := by
  cases c with
  | search text => exact ⟨_, rfl⟩
  | sort choice => exact ⟨_, rfl⟩

/-- If the tests are those for the text, a redraw shows the sorted matches. -/
theorem displayed_filterAndSortProducts {site : Site} {allProducts : List Product} {page : Page}
    (h : ∀ p ∈ allProducts, keeps L (L.toLowerCase page.searchInput) site p =
      some (contains L page.searchInput p)) :
    (filterAndSortProducts L site allProducts page).displayed =
      sort (compare L page.sortSelect) (allProducts.filter (contains L page.searchInput)) := by
  rw [filterAndSortProducts, filter_eq_some h]

theorem exact_of_keeps {site : Site} {allProducts : List Product} {text : JsString}
    (h : ∀ p ∈ allProducts, keeps L (L.toLowerCase text) site p = some (contains L text p))
    (choice : SortBy) : Exact L site allProducts text choice := by
  refine ⟨sort (compare L choice) (allProducts.filter (contains L text)),
    stableSort_sort (totalPreorder_compare choice) _, ?_⟩
  intro changes hne htext hchoice
  -- only the last change matters
  obtain hnil | ⟨before, last, rfl⟩ := List.eq_nil_or_concat' changes
  · exact absurd hnil hne
  rw [after, List.foldl_concat] at htext hchoice ⊢
  obtain ⟨page, hpage⟩ := change_eq site allProducts (after L site allProducts before) last
  have hredraw : change L site allProducts (before.foldl (change L site allProducts)
      (loaded allProducts)) last = filterAndSortProducts L site allProducts page := hpage
  obtain ⟨hsearch, hsort⟩ := controls_filterAndSortProducts (L := L) site allProducts page
  rw [hredraw] at htext hchoice ⊢
  rw [hsearch] at htext
  rw [hsort] at hchoice
  obtain rfl := htext
  obtain rfl := hchoice
  exact displayed_filterAndSortProducts h

/-- The empty text is in every name. -/
theorem keeps_nil (site : Site) (p : Product) :
    keeps L (L.toLowerCase []) site p = some (contains L [] p) := by
  have hname : includes (L.toLowerCase p.productName) (L.toLowerCase []) = true := by
    rw [L.toLowerCase_nil, includes_nil]
  cases site with
  | products => exact keeps_products (.inl hname)
  | publicProducts => exact keeps_publicProducts [] p

theorem contains_nil (p : Product) : contains L [] p = true := by
  rw [contains, L.toLowerCase_nil, includes_nil, Bool.true_or]

/-- A search that throws leaves what was shown. -/
theorem filterAndSortProducts_of_throws {allProducts : List Product} {page : Page} {p : Product}
    (hp : p ∈ allProducts)
    (hname : includes (L.toLowerCase p.productName) (L.toLowerCase page.searchInput) = false)
    (hdescription : p.description = none) :
    filterAndSortProducts L .products allProducts page = page := by
  rw [filterAndSortProducts, filter_eq_none hp (keeps_products_eq_none hname hdescription)]

/-- Where a description is missing, the search leaves the whole list in place. -/
theorem not_exact_of_missing {allProducts : List Product} {text : JsString} {p : Product}
    (hp : p ∈ allProducts)
    (hname : includes (L.toLowerCase p.productName) (L.toLowerCase text) = false)
    (hdescription : p.description = none) (choice : SortBy) :
    ¬Exact L .products allProducts text choice := by
  rintro ⟨shown, hshown, hafter⟩
  have hcontrols :=
    (controls_filterAndSortProducts (L := L) .products allProducts ⟨[], choice, allProducts⟩).2
  have hthrows : after L .products allProducts [.sort choice, .search text] =
      ⟨text, (filterAndSortProducts L .products allProducts ⟨[], choice, allProducts⟩).sortSelect,
        (filterAndSortProducts L .products allProducts ⟨[], choice, allProducts⟩).displayed⟩ :=
    filterAndSortProducts_of_throws hp hname hdescription
  rw [hcontrols] at hthrows
  have hdisplayed := hafter [.sort choice, .search text] (by simp) (by rw [hthrows])
    (by rw [hthrows])
  rw [hthrows, displayed_filterAndSortProducts (fun q _ => keeps_nil .products q)] at hdisplayed
  -- the product is shown, and does not contain the text
  have hmem : p ∈ shown := by
    rw [← hdisplayed]
    exact List.mem_mergeSort.mpr (List.mem_filter.mpr ⟨hp, contains_nil p⟩)
  have hcontains := (List.mem_filter.mp (hshown.perm.mem_iff.mp hmem)).2
  rw [contains, hname, hdescription] at hcontains
  cases hcontains

variable (L)

/-- Texts in lower case, compared only with themselves. -/
def plainLocale : Locale where
  toLowerCase := id
  toLowerCase_nil := rfl
  localeCompare := fun _ _ => .finite 0
  preorder := ⟨by simp [notAfter, Number.lt], by simp [notAfter, Number.lt]⟩

/-- A product `a` without a description. -/
def undescribed : Product where
  productId := 1
  productName := [97]
  description := none
  price := ⟨0, representable_zero⟩
  stock := ⟨0, representable_zero⟩

end Artha.Products
