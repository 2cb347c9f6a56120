import Artha.ApiController.Basic

/-!
# The customer actions: cart, transactions and checkout
-/

namespace Artha.ApiController

open Php Laravel

/-! ### The cart -/

def addToCartRules : List (Attribute × List Rule) :=
  [(.key "product_id", [.required, .integer]), (.key "quantity", [.required, .integer, .min 1])]

/-- The request `addToCart` sends. -/
def addToCartRequest (request : Request) (authorization : Value) : HttpRequest :=
  bearingJson
    (jsonRequest .post (api ++ "/customer/cart")
      [("product_id", request.get "product_id"), ("quantity", request.get "quantity")])
    authorization

def addToCart (request : Request) : Php Response :=
  attempt "Failed to add to cart: " <|
    validated request addToCartRules <|
      withUser fun user =>
        withTokenOf user "Unauthorized. Please login." fun token => do
          forward (addToCartRequest request (← bearer token)) answerData

/-- The request `getUserCart` sends. -/
def getUserCartRequest (authorization : Value) : HttpRequest :=
  bearing (bareRequest .get (api ++ "/customer/cart")) authorization

def getUserCart : Php Response :=
  attempt "Failed to get cart: " <|
    withUser fun user =>
      withTokenOf user "Unauthorized. Please login." fun token => do
        forward (getUserCartRequest (← bearer token)) answerData

def deleteCartItemsRules : List (Attribute × List Rule) :=
  [(.key "cart_ids", [.required, .array]), (.each "cart_ids", [.required, .integer])]

/-- The request `deleteCartItems` sends. -/
def deleteCartItemsRequest (request : Request) (authorization : Value) : HttpRequest :=
  bearingJson
    (jsonRequest .delete (api ++ "/customer/cart") [("cart_ids", request.get "cart_ids")])
    authorization

def deleteCartItems (request : Request) : Php Response :=
  attempt "Failed to delete cart items: " <|
    validated request deleteCartItemsRules <|
      withUser fun user =>
        withTokenOf user "Unauthorized. Please login." fun token => do
          forward (deleteCartItemsRequest request (← bearer token)) fun _ =>
            answerMessage "Cart items deleted successfully"

/-! ### Transactions -/

/-- The request `viewTransactionSummary` sends: the user's id is in the path, and there are no
credentials. -/
def summaryRequest (userId : String) : HttpRequest :=
  bareRequest .get (api ++ "/transactions/summary/" ++ userId)

def viewTransactionSummary : Php Response :=
  attempt "Failed to get transaction summary: " <|
    withUser fun user => do
      -- the id of the record may be `null`, which is an empty last segment
      forward (summaryRequest (← text (← readKey user "id"))) answerData

def viewTransactionDetailByIDRules : List (Attribute × List Rule) :=
  [(.key "transaction_id", [.required, .string])]

/-- The request `viewTransactionDetailByID` sends: nothing of the session goes into it. -/
def detailRequest (transactionId : String) : HttpRequest :=
  bareRequest .get (api ++ "/transactions/" ++ transactionId)

/-- The session only has to hold a user. -/
def viewTransactionDetailByID (request : Request) : Php Response :=
  attempt "Failed to get transaction detail: " <|
    validated request viewTransactionDetailByIDRules <|
      withUser fun _ => do
        forward (detailRequest (← text (request.get "transaction_id"))) answerData

/-! ### Checkout -/

/-- The first call of `checkout`: create the transaction in the backend. -/
def transactionRequest (userId : Value) : HttpRequest :=
  jsonRequest .post (api ++ "/transactions") [("user_id", userId)]

/-- The second call of `checkout`: create the payment. -/
def paymentRequest (serverKey baseUrl : String) (orderId grossAmount name email : Value) :
    HttpRequest :=
  { jsonRequest .post (baseUrl ++ "/transactions")
      [("transaction_details", .arr [("order_id", orderId), ("gross_amount", grossAmount)]),
        ("customer_details",
          .arr [("first_name", name), ("last_name", name), ("email", email)])] with
    basicAuth := some (serverKey, "") }

/-- The second half of `checkout`, behind a successful `POST /transactions`. -/
def createPayment (user : Value) (response : HttpResponse) : Php Response := do
  let transaction ← decode response
  let serverKey ← stringParam (← config "server_key")
  -- `config/midtrans.php` has no such key, so this is the empty text
  let baseUrl ← text (← config "base_url")
  -- the four fields are read without `??`: a missing one raises
  let orderId ← readKey transaction "id"
  let grossAmount ← readKey transaction "total_amount"
  let name ← readKey user "name"
  let email ← readKey user "email"
  let midtransResponse ← send (paymentRequest serverKey baseUrl orderId grossAmount name email)
  if !midtransResponse.successful then
    throwBody "Failed to create payment: " midtransResponse
  else
    let payment ← decode midtransResponse
    json (successData (.arr [("transaction", transaction), ("payment", payment)]))

def checkout : Php Response :=
  attempt "Failed to checkout: " <|
    withUser fun user => do
      let userId ← readKey user "id"
      forward (transactionRequest userId) (createPayment user)

end Artha.ApiController
