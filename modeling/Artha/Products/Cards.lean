import Artha.Html.Tokenizer
import Artha.JavaScript.Call
import Artha.JavaScript.Stringify

/-!
# The cards of the product pages

Three pages build the markup of a card from a template with the name and the description of the
product in it: `loadProducts` in `customer/dashboard.blade.php`, `renderProducts` in
`customer/dashboard-new.blade.php` and `displayProducts` in `products.blade.php`.  The first two
give each card an element of its own, the third one joins the cards of all products.

The numbers of a product are finite.  What their texts are is the browser's matter;
`formatCurrency` is none of the page's own functions.
-/

namespace Artha.Products.Cards

open JavaScript Html

structure Product where
  productId : ℚ
  productName : JsString
  description : JsString
  price : ℚ
  /-- `quantity` on two of the pages. -/
  stock : ℚ
deriving DecidableEq

/-- The texts of amounts, which have no meaning in HTML. -/
structure Amounts where
  /-- `price.toLocaleString('id-ID')`. -/
  toLocaleString : ℚ → JsString
  formatCurrency : ℚ → JsString
  toLocaleString_plain : ∀ v, ∀ c ∈ toLocaleString v, c ≠ 0 ∧ c ≠ 13 ∧ c ≠ 38 ∧ c ≠ 60
  formatCurrency_plain : ∀ v, ∀ c ∈ formatCurrency v, c ≠ 0 ∧ c ≠ 13 ∧ c ≠ 38 ∧ c ≠ 60

/-- The pages. -/
inductive Page where
  | dashboard
  | dashboardNew
  | products
deriving DecidableEq, Repr

/-- A line of a template. -/
def line (indent : Nat) (text : String) : JsString :=
  10 :: (List.replicate indent 32 ++ units text)

/-- `No description available`. -/
def noDescription : JsString := units "No description available"

/-- The part that the templates share: a heading with the name and a paragraph with the
description. -/
def card (before name between description after : JsString) : JsString :=
  before ++ (name ++ (units "</h3>" ++ (between ++ (description ++ (units "</p>" ++ after)))))

section Markup

variable (texts : NumberTexts) (amounts : Amounts)

/-! ### `loadProducts` -/

/-- The card behind its paragraph. -/
def loadProductsRest (p : Product) : JsString :=
  [line 24 "<div class=\"flex justify-between items-center mb-4\">",
    line 28 "<span class=\"text-lg font-bold\">Rp ", amounts.toLocaleString p.price,
    units "</span>",
    line 28 "<span class=\"text-sm text-gray-500\">Stock: ", texts.text p.stock, units "</span>",
    line 24 "</div>",
    line 24 "<button onclick=\"addToCart(", texts.text p.productId, units ")\" ",
    line 32 "class=\"w-full bg-blue-600 text-white py-2 px-4 rounded",
    units " hover:bg-blue-700 transition-colors\"",
    line 32 "", if p.stock < 1 then units "disabled" else [], units ">",
    line 28 "", if p.stock < 1 then units "Stok Habis" else units "Tambah ke Keranjang",
    line 24 "</button>", line 20 ""].flatten

def loadProducts (p : Product) : JsString :=
  card (line 24 "<h3 class=\"text-lg font-semibold mb-2\">") p.productName
    (line 24 "<p class=\"text-gray-600 mb-4\">")
    (if p.description = [] then noDescription else p.description) (loadProductsRest texts amounts p)

/-! ### `renderProducts` -/

/-- The card before its name. -/
def renderProductsStart : JsString :=
  [line 16 "<div class=\"product-image\">", line 20 "<i class=\"fas fa-oil-can\"></i>",
    line 16 "</div>", line 16 "<h3 class=\"font-semibold text-lg mb-2\">"].flatten

/-- The card behind its paragraph, up to the button. -/
def renderProductsMiddle (p : Product) : JsString :=
  [line 16 "<div class=\"flex justify-between items-center mb-3\">",
    line 20 "<span class=\"text-xl font-bold text-blue-600\">", amounts.formatCurrency p.price,
    units "</span>",
    line 20 "<span class=\"text-sm text-gray-500\">Stok: ", texts.text p.stock, units "</span>",
    line 16 "</div>", line 16 "<div class=\"flex gap-2\">",
    line 20 "<input type=\"number\" min=\"1\" max=\"", texts.text p.stock, units "\" value=\"1\" ",
    line 27 "class=\"flex-1 px-3 py-2 border rounded-lg text-center\" ",
    line 27 "id=\"qty-", texts.text p.productId, units "\">"].flatten

/-- The button up to the name in its handler. -/
def renderProductsButton (p : Product) : JsString :=
  [line 20 "<button onclick=\"addToCart(", texts.text p.productId, units ", '"].flatten

/-- The card behind the name in the handler. -/
def renderProductsRest (p : Product) : JsString :=
  [units "', ", texts.text p.price, units ")\" ",
    line 28 "class=\"btn btn-primary\"",
    line 28 "", if p.stock = 0 then units "disabled" else [], units ">",
    line 24 "<i class=\"fas fa-cart-plus\"></i>",
    line 24 "", if p.stock = 0 then units "Habis" else units "Tambah",
    line 20 "</button>", line 16 "</div>", line 12 ""].flatten

def renderProducts (p : Product) : JsString :=
  card renderProductsStart p.productName (line 16 "<p class=\"text-gray-600 text-sm mb-3\">")
    p.description
    (renderProductsMiddle texts amounts p ++
      (renderProductsButton texts p ++ (p.productName ++ renderProductsRest texts p)))

/-! ### `displayProducts` -/

/-- The card before its name. -/
def displayProductsStart : JsString :=
  [line 16 "<div class=\"product-card bg-white rounded-lg shadow-md overflow-hidden\">",
    line 20 "<div class=\"p-6\">",
    line 24 "<div class=\"h-40 bg-gray-100 rounded-lg flex items-center",
    units " justify-center mb-4\">",
    line 28 "<i class=\"fas fa-oil-can text-4xl text-gray-400\"></i>", line 24 "</div>",
    line 24 "<h3 class=\"text-lg font-semibold text-gray-900 mb-2\">"].flatten

/-- The card behind its paragraph. -/
def displayProductsRest (p : Product) : JsString :=
  [line 24 "<div class=\"flex justify-between items-center mb-4\">",
    line 28 "<span class=\"text-lg font-bold text-blue-600\">Rp ", amounts.toLocaleString p.price,
    units "</span>",
    line 28 "<span class=\"text-sm ",
    if 10 < p.stock then units "text-green-600" else units "text-orange-600", units "\">",
    line 32 "Stock: ", texts.text p.stock, line 28 "</span>", line 24 "</div>",
    line 24 "<button onclick=\"handleAddToCart(", texts.text p.productId, units ")\" ",
    line 32 "class=\"w-full bg-blue-600 text-white py-3 px-4 rounded-lg hover:bg-blue-700",
    units " transition-colors flex items-center justify-center gap-2 ",
    if p.stock = 0 then units "opacity-50 cursor-not-allowed" else [], units "\"",
    line 32 "", if p.stock = 0 then units "disabled" else [], units ">",
    line 28 "<i class=\"fas fa-shopping-cart\"></i>",
    line 28 "", if p.stock = 0 then units "Out of Stock" else units "Add to Cart",
    line 24 "</button>", line 20 "</div>", line 16 "</div>", line 12 ""].flatten

def displayProducts (p : Product) : JsString :=
  card displayProductsStart p.productName (line 24 "<p class=\"text-gray-600 text-sm mb-4\">")
    p.description (displayProductsRest texts amounts p)

/-! ### Pages -/

namespace Page

def cardOf : Page → Product → JsString
  | .dashboard => loadProducts texts amounts
  | .dashboardNew => renderProducts texts amounts
  | .products => displayProducts texts amounts

/-- What is assigned to `innerHTML`, with the products that are shown in it. -/
def fragments (page : Page) (l : List Product) : List (List Product × JsString) :=
  match page with
  | .products => if l = [] then [] else [(l, l.flatMap (page.cardOf texts amounts))]
  | _ => l.map fun p => ([p], page.cardOf texts amounts p)

end Page

end Markup

end Artha.Products.Cards
