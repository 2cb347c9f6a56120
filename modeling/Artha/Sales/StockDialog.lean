import Artha.Html.References
import Artha.JavaScript.Stringify

/-!
# The dialog that updates a stock

The table of `resources/views/sales/stock.blade.php` writes each row into the button that opens the
dialog, as `data-stock='${JSON.stringify(data)}'`.  The handler reads it back with the `data` of
jQuery, which converts the text where it can, and gives the result to `JSON.parse`.
-/

namespace Artha.Sales.StockDialog

open JavaScript Html

/-- A row of the table, as the server sent it. -/
structure Stock where
  fields : List (JsString × Scalar)
  nodup : (fields.map Prod.fst).Nodup

variable (names : NamedReferences) (texts : NumberTexts)

/-- The value of the attribute `data-stock`: it ends at the first apostrophe. -/
def dataStock (stock : Stock) : JsString :=
  decode names true ((Json.stringify texts stock.fields).takeWhile (· ≠ 39))

/-- The text is one that jQuery gives to `JSON.parse`: it is in braces or in brackets. -/
def isBraced (data : JsString) : Bool :=
  data.head? = some 123 && data.getLast? = some 125 ||
    data.head? = some 91 && data.getLast? = some 93

/-- `$(this).data('stock')`, of an attribute with this value; what cannot be converted stays. -/
def data (value : JsString) : Json :=
  if value = Json.scalarText texts (.bool true) then .bool true
  else if value = Json.scalarText texts (.bool false) then .bool false
  else if value = Json.scalarText texts .null then .null
  else if value = texts.numberText (stringToNumber value) then .number (stringToNumber value)
  else if isBraced value then (Json.parse value).getD (.string value)
  else .string value

/-- The handler's `stockData`; none is an exception. -/
def stockData (stock : Stock) : Option Json :=
  (Json.toText texts (data texts (dataStock names texts stock))).bind Json.parse

/-- `stock_id`. -/
def stockIdKey : JsString := [115, 116, 111, 99, 107, 95, 105, 100]

/-- `product_name`. -/
def productNameKey : JsString := [112, 114, 111, 100, 117, 99, 116, 95, 110, 97, 109, 101]

/-- `quantity`. -/
def quantityKey : JsString := [113, 117, 97, 110, 116, 105, 116, 121]

/-- `note`. -/
def noteKey : JsString := [110, 111, 116, 101]

/-- What the inputs of the dialog are set to; none is `undefined`. -/
structure Dialog where
  stockId : Option Json
  productName : Option Json
  currentStock : Option Json
  newStock : Option Json
  stockNote : Json

/-- The dialog for a row with these fields. -/
def fill (get : JsString → Option Json) : Dialog where
  stockId := get stockIdKey
  productName := get productNameKey
  currentStock := get quantityKey
  newStock := get quantityKey
  stockNote := ((get noteKey).filter Json.truthy).getD (.string [])

/-- The click on the button; none is an exception, and the dialog stays closed. -/
def click (stock : Stock) : Option Dialog :=
  (stockData names texts stock).bind fun v =>
    match v with
    | .null => none
    | v => some (fill v.get?)

end Artha.Sales.StockDialog
