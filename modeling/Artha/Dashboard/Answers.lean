import Artha.Php.Value

/-!
# What the views read out of an answer

The scripts of `products.blade.php` and of the dashboards parse the controller's answer and pick a
member of it.  A parsed answer is a JSON value, and `none` is JavaScript's `undefined`.  A missing
member is `undefined`, and a member of `undefined` or `null` is a `TypeError`.
-/

namespace Artha.Dashboard

open Php

/-- A `TypeError`. -/
inductive TypeError where
  | noMembers
deriving DecidableEq, Repr

/-- `v.key`.  A PHP list is a JavaScript array, which has no members of its own but its elements. -/
def member (v : Option Value) (key : String) : Except TypeError (Option Value) :=
  match v with
  | none | some .null => .error .noMembers
  | some (.arr es) => .ok (if (Value.arr es).asList?.isSome then none else es.lookup key)
  | some _ => .ok none

/-- `!!v`. -/
def isTruthy : Option Value → Bool
  | none | some .null => false
  | some (.bool b) => b
  | some (.int n) => n != 0
  -- neither zero nor `NaN`
  | some (.float bits) => !Value.floatIsZero bits && (Value.floatIsFinite bits || bits <<< 12 == 0)
  | some (.str s) => s != ""
  | some (.arr _) => true

/-- `fetchProducts` of `products.blade.php`: the value it returns. -/
def fetchProducts (data : Value) : Option Value :=
  match member (some data) "status" with
  | .ok (some (.str "success")) =>
    match member (some data) "products" with
    | .ok products => products
    | .error _ => some (.ofList [])
  | .ok _ => some (.ofList [])
  -- the `catch` block
  | .error _ => some (.ofList [])

/-- What becomes of a load in `dashboard-new.blade.php`. -/
inductive Loaded where
  /-- The member is there and its length is looked at. -/
  | read (v : Value)
  /-- The status is not `success`. -/
  | skipped
  /-- A `TypeError`, caught: the page shows that there is nothing. -/
  | raised
deriving DecidableEq

/-- `if (data.status === 'success' && data.key.length > 0) ...`, as `loadProducts`, `loadCart` and
`loadTransactions` have it. -/
def loadList (key : String) (data : Value) : Loaded :=
  match member (some data) "status" with
  | .ok (some (.str "success")) =>
    match member (some data) key with
    | .ok (some .null) | .ok none | .error _ => .raised
    | .ok (some v) => .read v
  | .ok _ => .skipped
  | .error _ => .raised

/-- `loadProducts` of `dashboard-new.blade.php`. -/
def loadProducts : Value → Loaded := loadList "products"

/-- `loadCart` of `dashboard-new.blade.php`. -/
def loadCart : Value → Loaded := loadList "cartItems"

/-- `loadTransactions` of `dashboard-new.blade.php`. -/
def loadTransactions : Value → Loaded := loadList "transactions"

/-- `processCheckout`, in both dashboards: the token that is passed to `snap.pay`, if it is called
at all. -/
def snapToken (data : Value) : Option Value :=
  match member (some data) "status", member (some data) "token" with
  | .ok (some (.str "success")), .ok token => if isTruthy token then token else none
  | _, _ => none

end Artha.Dashboard
