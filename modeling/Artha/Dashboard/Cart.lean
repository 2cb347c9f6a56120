import Mathlib.Tactic.Basic

/-!
# The cart of the two customer dashboards

`dashboard.blade.php` and `dashboard-new.blade.php` keep the cart in a script variable
`currentCart`, apart from the rows they show, and check out what is in the variable.  A page is its
script variables and the parts of the document the cart functions write; what the user and the
network do is an `Event`.

A load is in two steps: `loadCart` asks for the cart, and later the answer arrives.  Loads may
overlap, so a page counts the answers it waits for.  The values of an item's fields are never
looked into and are of any type `α`.
-/

namespace Artha.Dashboard

/-- A product of a cart item. -/
structure Product (α : Type) where
  productName : α
  price : α
deriving DecidableEq, Repr

/-- An item of the cart, as the server reports it. -/
structure CartItem (α : Type) where
  cartId : α
  productId : α
  quantity : α
  product : Product α
deriving DecidableEq, Repr

/-- An item of a checkout request. -/
structure CheckoutItem (α : Type) where
  productId : α
  quantity : α
  price : α
  name : α
deriving DecidableEq, Repr

variable {α : Type}

/-- The object `processCheckout` makes of a cart item. -/
def CartItem.checkoutItem (item : CartItem α) : CheckoutItem α where
  productId := item.productId
  quantity := item.quantity
  price := item.product.price
  name := item.product.productName

/-- The answer to a load. -/
inductive Reply (α : Type) where
  | cart (items : List (CartItem α))
  /-- A 401 or 403. -/
  | unauthorized
  /-- Any other error. -/
  | failure

/-- What becomes of `removeFromCart`. -/
inductive Removal where
  /-- The user does not confirm. -/
  | declined
  | succeeded
  | unauthorized
  | failed

/-- The callbacks of `snap.pay`. -/
inductive Callback where
  | onSuccess | onPending | onError | onClose

/-- What happens to a page. -/
inductive Event (α : Type) where
  /-- The cart section is opened. -/
  | loadCart
  /-- The answer to a load arrives. -/
  | answered (reply : Reply α)
  | removeFromCart (removal : Removal)
  | processCheckout
  | payment (callback : Callback)

/-! ### `dashboard-new.blade.php` -/

/-- The new dashboard. -/
structure NewPage (α : Type) where
  currentCart : List (CartItem α)
  /-- The rows of `cart-items`. -/
  rows : List (CartItem α)
  /-- `cart-loading`, `cart-content` and `empty-cart` are displayed. -/
  loading : Bool
  content : Bool
  empty : Bool
  /-- Loads that wait for their answer. -/
  pending : Nat

namespace NewPage

def start : NewPage α where
  currentCart := []
  rows := []
  loading := true
  content := false
  empty := false
  pending := 0

/-- `loadCart`, up to its `await`. -/
def loadCart (page : NewPage α) : NewPage α :=
  { page with loading := true, content := false, empty := false, pending := page.pending + 1 }

/-- `renderCart`. -/
def renderCart (page : NewPage α) (items : List (CartItem α)) : NewPage α :=
  { page with rows := items }

/-- `loadCart`, from its `await` on.  Only a cart with items in it is stored. -/
def loaded (page : NewPage α) (reply : Reply α) : NewPage α :=
  let page := match reply with
    | .cart items =>
      if items.length > 0 then
        { renderCart { page with currentCart := items } items with content := true }
      -- `currentCart` is not assigned here, nor in the `catch` block
      else { page with empty := true }
    | .unauthorized | .failure => { page with empty := true }
  { page with loading := false, pending := page.pending - 1 }

def step (page : NewPage α) : Event α → NewPage α
  | .loadCart => page.loadCart
  | .answered reply => if page.pending = 0 then page else page.loaded reply
  | .removeFromCart .succeeded => page.loadCart
  | .removeFromCart _ => page
  | .processCheckout => page
  | .payment .onSuccess => page.loadCart
  | .payment _ => page

/-- The items of the request `processCheckout` sends, if it sends one. -/
def processCheckout (page : NewPage α) : Option (List (CheckoutItem α)) :=
  if page.currentCart.length = 0 then none
  else some (page.currentCart.map CartItem.checkoutItem)

/-- The cart an event makes the page report: the answer of a load that waits for one. -/
def reports (page : NewPage α) : Event α → Option (List (CartItem α))
  | .answered (.cart items) => if page.pending = 0 then none else some items
  | _ => none

end NewPage

/-! ### `dashboard.blade.php` -/

/-- The dashboard that is served. -/
structure OldPage (α : Type) where
  /-- The document has `loading-cart`, `cart-items` and `cart-total`. -/
  elements : Bool
  /-- The document has `checkout-btn`. -/
  checkoutButton : Bool
  /-- `localStorage` has a token. -/
  token : Bool
  currentCart : List (CartItem α)
  /-- The cart's rows in `cart-items`; a message there instead of rows is none. -/
  rows : List (CartItem α)
  pending : Nat

namespace OldPage

/-- The page at its start, for a document with or without the elements. -/
def start (elements checkoutButton token : Bool) : OldPage α where
  elements
  checkoutButton
  token
  currentCart := []
  rows := []
  pending := 0

/-- The document of `dashboard.blade.php` has `loading-cart` and none of the other elements. -/
def served (token : Bool) : OldPage α := start false false token

/-- `loadCart`, up to its `fetch`. -/
def loadCart (page : OldPage α) : OldPage α :=
  -- returns at once where an element is missing
  if !page.elements then page
  else if !page.token then { page with rows := [] }
  else { page with rows := [], pending := page.pending + 1 }

/-- `loadCart`, from the answer on.  Setting `disabled` of a button that is not there raises, and
the `catch` block replaces the rows by a message. -/
def loaded (page : OldPage α) (reply : Reply α) : OldPage α :=
  let page := { page with pending := page.pending - 1 }
  match reply with
  -- the rows are shown; `currentCart` is not assigned
  | .cart items => { page with rows := if page.checkoutButton then items else [] }
  | .unauthorized => { page with rows := [], token := false }
  | .failure => { page with rows := [] }

/-- `removeFromCart`.  After a 401 or 403 the handler goes on to `loadCart` too. -/
def removeFromCart (page : OldPage α) (removal : Removal) : OldPage α :=
  match removal with
  | .declined => page
  | .succeeded => if !page.token then page else page.loadCart
  | .unauthorized => if !page.token then page else loadCart { page with token := false }
  | .failed => page

def step (page : OldPage α) : Event α → OldPage α
  | .loadCart => page.loadCart
  | .answered reply => if page.pending = 0 then page else page.loaded reply
  | .removeFromCart removal => page.removeFromCart removal
  | .processCheckout => page
  | .payment .onSuccess => page.loadCart
  | .payment _ => page

/-- The items of the request `processCheckout` sends, if it sends one. -/
def processCheckout (page : OldPage α) : Option (List (CheckoutItem α)) :=
  if page.currentCart.length = 0 then none
  else if !page.token then none
  else some (page.currentCart.map CartItem.checkoutItem)

/-- The cart an event makes the page report and display. -/
def reports (page : OldPage α) : Event α → Option (List (CartItem α))
  | .answered (.cart items) =>
    if page.pending = 0 || !page.checkoutButton then none else some items
  | _ => none

end OldPage

end Artha.Dashboard
