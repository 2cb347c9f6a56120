import Mathlib.Data.List.Infix
import Artha.JavaScript.Number
import Artha.JavaScript.Sort

/-!
# Search and sort on the product pages

`products.blade.php` and `public/products.blade.php` keep the loaded products in `allProducts` and
show those that the search field and the order ask for.  The two differ in one place: the public
page looks whether there is a description before it reads it, the other one does not, and a product
without one ends the handler before anything is drawn.

Lower case and `localeCompare` are the browser's.
-/

namespace Artha.Products

open Binary64 JavaScript

/-- A loaded product.  The prices and numbers are finite. -/
structure Product where
  productId : ℚ
  productName : JsString
  description : Option JsString
  price : { v : ℚ // Representable v }
  /-- `quantity` on one page, `stock` on the other. -/
  stock : { v : ℚ // Representable v }
deriving DecidableEq

structure Locale where
  toLowerCase : JsString → JsString
  toLowerCase_nil : toLowerCase [] = []
  localeCompare : JsString → JsString → Number
  preorder : TotalPreorder (notAfter localeCompare)

/-- `s.includes(t)`. -/
def includes (s t : JsString) : Bool := t <:+: s

/-- The options of `sortSelect`. -/
inductive SortBy where
  | name
  | priceAsc
  | priceDesc
  | stock
deriving DecidableEq, Repr

variable (L : Locale)

/-- The function that is passed to `sort`. -/
def compare : SortBy → Product → Product → Number
  | .priceAsc, a, b => .sub (.finite a.price.1) (.finite b.price.1)
  | .priceDesc, a, b => .sub (.finite b.price.1) (.finite a.price.1)
  | .stock, a, b => .sub (.finite b.stock.1) (.finite a.stock.1)
  | .name, a, b => L.localeCompare a.productName b.productName

/-- The two pages. -/
inductive Site where
  | products
  | publicProducts
deriving DecidableEq, Repr

/-- The function that is passed to `filter`; none is a `TypeError`. -/
def keeps (searchTerm : JsString) : Site → Product → Option Bool
  | .products, p =>
    if includes (L.toLowerCase p.productName) searchTerm then some true
    -- `product.description.toLowerCase()`
    else p.description.map fun d => includes (L.toLowerCase d) searchTerm
  | .publicProducts, p =>
    if includes (L.toLowerCase p.productName) searchTerm then some true
    -- `product.description && ...`
    else some (p.description.any fun d => d ≠ [] && includes (L.toLowerCase d) searchTerm)

/-- `l.filter(f)`, where `f` may throw. -/
def filter {α : Type} (f : α → Option Bool) : List α → Option (List α)
  | [] => some []
  | a :: l => do
    let kept ← f a
    let rest ← filter f l
    return if kept then a :: rest else rest

/-- The two controls, and what is shown. -/
structure Page where
  searchInput : JsString
  sortSelect : SortBy
  displayed : List Product

def filterAndSortProducts (site : Site) (allProducts : List Product) (page : Page) : Page :=
  match filter (keeps L (L.toLowerCase page.searchInput) site) allProducts with
  | some filteredProducts =>
    { page with displayed := sort (compare L page.sortSelect) filteredProducts }
  -- the handler ends before `displayProducts`
  | none => page

/-- What the user does. -/
inductive Change where
  | search (text : JsString)
  | sort (choice : SortBy)

def change (site : Site) (allProducts : List Product) (page : Page) : Change → Page
  | .search text => filterAndSortProducts L site allProducts { page with searchInput := text }
  | .sort choice => filterAndSortProducts L site allProducts { page with sortSelect := choice }

/-- The page when the products have been loaded. -/
def loaded (allProducts : List Product) : Page where
  searchInput := []
  sortSelect := .name
  displayed := allProducts

/-- The page after some changes. -/
def after (site : Site) (allProducts : List Product) (changes : List Change) : Page :=
  changes.foldl (change L site allProducts) (loaded allProducts)

end Artha.Products
