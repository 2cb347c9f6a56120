import Artha.Html.NumberInput
import Artha.Html.Tokenizer
import Artha.JavaScript.RoundTrip

/-!
# The dialog that adds a product (`sales/stock.blade.php`)

The handler of `#saveNewProduct` with `validateForm`, the answer to its request, and the handler
that clears the dialog when it is closed.  `validateForm` and the request both read the inputs: the
price with `parseFloat`, the stock with `parseInt`.

What is left out: the alerts, the label of the button and the table behind the dialog.
-/

namespace Artha.Sales.NewProduct

open Binary64 JavaScript Html

/-- What the inputs of `addProductForm` hold.  The price and the stock are number inputs. -/
structure Form where
  newProductName : JsString
  newProductPrice : Option FloatText
  newProductStock : Option FloatText
  newProductNote : JsString

/-- Which of the inputs have the class `is-invalid`. -/
structure Marks where
  newProductName : Bool
  newProductPrice : Bool
  newProductStock : Bool
deriving DecidableEq

/-- No input has the class. -/
def Marks.clear : Marks := ⟨false, false, false⟩

/-- `isNaN(x) || x < least`. -/
def isBelow (least : ℚ) (x : Number) : Bool := x = .nan || x.lt (.finite least)

/-- What `validateForm` marks; it returns true if it marks nothing. -/
def validateForm (form : Form) : Marks where
  newProductName := trim form.newProductName = []
  newProductPrice := isBelow 0 (parseFloatText (inputText form.newProductPrice))
  newProductStock := isBelow 1 (parseInt (inputText form.newProductStock))

/-- `data` of the handler. -/
structure Data where
  productName : JsString
  price : Number
  note : JsString
  stock : Number

def Form.data (form : Form) : Data where
  productName := trim form.newProductName
  price := parseFloatText (inputText form.newProductPrice)
  -- `note || ''`
  note := trim form.newProductNote
  stock := parseInt (inputText form.newProductStock)

/-- The object that is posted, its fields backwards. -/
def Data.body (d : Data) : Json :=
  .object [(units "stock", .object [(units "stock", .number d.stock)]),
    (units "product", .object [(units "note", .string d.note), (units "price", .number d.price),
      (units "product_name", .string d.productName)])]

/-- A request: the token of the header `Authorization`, and the data. -/
structure Post where
  token : JsString
  data : Data

/-- What the request is answered with. -/
inductive Answer where
  | success
  | unauthorized
  | error
deriving DecidableEq

structure Dialog where
  marks : Marks
  /-- The button is disabled. -/
  disabled : Bool
  /-- The requests that wait for their answer. -/
  saving : List Post
  /-- All requests, in the order in which they were sent. -/
  posted : List Post
  /-- The page has been sent to `/login`. -/
  left : Bool

inductive Event where
  /-- A click on the button, with the token in `localStorage` and the inputs as they are. -/
  | click (token : Option JsString) (form : Form)
  | answered (answer : Answer)
  /-- `hidden.bs.modal`. -/
  | hidden

namespace Dialog

def opened : Dialog where
  marks := .clear
  disabled := false
  saving := []
  posted := []
  left := false

/-- `getToken`: an empty token is none. -/
def getToken (token : Option JsString) : Option JsString := token.filter (· ≠ [])

/-- The handler of `#saveNewProduct`. -/
def saveNewProduct (d : Dialog) (token : Option JsString) (form : Form) : Dialog :=
  match getToken token with
  | none => { d with left := true }
  | some t =>
    if validateForm form = .clear then
      { d with
        marks := .clear
        disabled := true
        saving := d.saving ++ [⟨t, form.data⟩]
        posted := d.posted ++ [⟨t, form.data⟩] }
    else { d with marks := validateForm form }

/-- `success` or `error`, and `complete`. -/
def answered (d : Dialog) (answer : Answer) : Dialog :=
  { d with disabled := false, left := d.left || answer = .unauthorized }

def step (d : Dialog) : Event → Dialog
  -- a button that is disabled is not clicked
  | .click token form => if d.disabled then d else d.saveNewProduct token form
  | .answered answer =>
    match d.saving with
    | [] => d
    | _ :: saving => { d with saving := saving }.answered answer
  | .hidden => { d with marks := .clear }

/-- The dialog after some events. -/
def after (run : List Event) : Dialog := run.foldl step opened

end Dialog

end Artha.Sales.NewProduct
