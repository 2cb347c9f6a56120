import Mathlib.Tactic.Basic

/-!
# The product grid of `dashboard.blade.php`

`loadProducts` clears and hides the grid when it sends its request and fills the grid when the
response arrives.  Nothing ties a response to the grid of its own call, so calls may overlap: the
start of the page alone makes two.  A page is the grid and the spinner, and the calls that wait for
their response; the calls are numbered in the order in which they are made.

A request needs a token, and a 401 or 403 leaves the page; neither is an event of a page here.
-/

namespace Artha.Dashboard

/-- What stands in the grid: cards and the two messages. -/
inductive Node (α : Type) where
  | card (product : α)
  /-- `Tidak ada produk tersedia`. -/
  | noProducts
  /-- `Gagal memuat produk`. -/
  | failed
deriving DecidableEq, Repr

/-- What a call is answered with. -/
inductive Answer (α : Type) where
  /-- A list.  An entry whose card cannot be built, because it has no price, is `none`. -/
  | products (entries : List (Option α))
  /-- JSON that is not a list. -/
  | other
  /-- Another error status than 401 and 403, a body that is not JSON, or no connection. -/
  | failure
deriving DecidableEq, Repr

/-- The page. -/
structure ProductsPage (α : Type) where
  /-- The children of `products-grid`. -/
  grid : List (Node α)
  /-- `products-grid` is displayed. -/
  shown : Bool
  /-- `loading-products` is displayed. -/
  loading : Bool
  /-- How many calls have been made. -/
  issued : Nat
  /-- The calls that wait for their response. -/
  inFlight : List Nat
  /-- The response to the last call, once it is there. -/
  lastAnswer : Option (Answer α)
deriving DecidableEq, Repr

/-- What happens to the page. -/
inductive ProductsEvent (α : Type) where
  /-- `loadProducts` is called. -/
  | loadProducts
  /-- The response to a call is processed. -/
  | answered (call : Nat) (answer : Answer α)

namespace ProductsPage

variable {α : Type}

/-- `loadProducts`, up to its `fetch`. -/
def loadProducts (page : ProductsPage α) : ProductsPage α where
  grid := []
  shown := false
  loading := true
  issued := page.issued + 1
  inFlight := page.issued :: page.inFlight
  lastAnswer := none

/-- What a response makes of the grid.  Cards are appended, a message replaces everything. -/
def render (grid : List (Node α)) : Answer α → List (Node α)
  | .products entries =>
    -- an exception in the middle of the loop ends in the `catch` block
    if entries.all Option.isSome then grid ++ entries.filterMap fun entry => entry.map Node.card
    else [.failed]
  | .other => [.noProducts]
  | .failure => [.failed]

/-- `loadProducts`, from the response on. -/
def loaded (page : ProductsPage α) (call : Nat) (answer : Answer α) : ProductsPage α where
  grid := render page.grid answer
  shown := true
  loading := false
  issued := page.issued
  inFlight := page.inFlight.filter (· ≠ call)
  lastAnswer := if call + 1 = page.issued then some answer else page.lastAnswer

def step (page : ProductsPage α) : ProductsEvent α → ProductsPage α
  | .loadProducts => page.loadProducts
  | .answered call answer => if call ∈ page.inFlight then page.loaded call answer else page

/-- The document before the script runs. -/
def blank : ProductsPage α where
  grid := []
  shown := false
  loading := true
  issued := 0
  inFlight := []
  lastAnswer := none

/-- `DOMContentLoaded`: `loadProducts` is called, and once more by `showSection('dashboard')`. -/
def start : ProductsPage α := blank.loadProducts.loadProducts

end ProductsPage

end Artha.Dashboard
