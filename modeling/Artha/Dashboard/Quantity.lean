import Artha.JavaScript.Number

/-!
# The quantities that two pages send

The stock page (`sales/stock.blade.php`) and the customer's dashboard (`dashboard-new.blade.php`)
each read a quantity from a number input.  Both build the payload with `parseInt`; the stock page
first compares the text with zero, which converts it in another way.
-/

namespace Artha.Dashboard

open Binary64 JavaScript

/-- The data of `PUT /sales/stocks`. -/
structure StockUpdate where
  stockId : Number
  quantity : Number
  note : JsString

/-- The handler of `#saveStockUpdate`: nothing is sent where it says 'Please enter a valid
quantity'. -/
def saveStockUpdate (stockId newQuantity note : JsString) : Option StockUpdate :=
  if newQuantity = [] ∨ (stringToNumber newQuantity).lt (.finite 0) then none
  else
    some
      { stockId := parseInt stockId
        quantity := parseInt newQuantity
        note := note }

/-- The body of `POST /customer/cart`. -/
structure CartRequest (α : Type) where
  productId : α
  quantity : Number

/-- `parseInt(qtyInput.value) || 1`. -/
def cartQuantity (value : JsString) : Number :=
  if truthy (parseInt value) then parseInt value else .finite 1

/-- `addToCart`: it sends the request whatever the input holds. -/
def addToCart {α : Type} (productId : α) (value : JsString) : CartRequest α where
  productId := productId
  quantity := cartQuantity value

end Artha.Dashboard
