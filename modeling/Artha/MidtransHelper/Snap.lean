import Artha.Config.Boot
import Artha.Laravel.Http
import Artha.Php.Number

/-!
# `MidtransHelper`: the Snap token

`createSnapToken` and `formatSnapTransaction`.  Both describe a payment to Midtrans; the first posts
the description and returns an array on every way out of its `try`.  Its logging is left out but for
`maskString`, which computes what is logged and may raise.
-/

namespace Artha.MidtransHelper

open Php Laravel

/-! ### The description of a payment -/

/-- `'transaction_details'`. -/
def transactionDetails (orderId amount : Value) : Value :=
  .arr [("order_id", orderId), ("gross_amount", .int amount.toInt)]

/-- `'customer_details'`, with the phone number that stands in for a missing one. -/
def customer (customerDetails : Value) (phone : String) : Value :=
  .arr [("first_name", customerDetails.getD "name" (.str "Customer")),
    ("email", customerDetails.getD "email" (.str "customer@example.com")),
    ("phone", customerDetails.getD "phone" (.str phone))]

/-- `'credit_card' => ['secure' => true]`. -/
def secureCard : Value := .arr [("secure", .bool true)]

def formatSnapTransaction (transactionId amount customerDetails : Value)
    (items : List (String × Value)) : Value :=
  .arr [("payment_type", .str "credit_card"),
    ("transaction_details", transactionDetails transactionId amount),
    ("customer_details", customer customerDetails "+628123456789"),
    ("item_details", .arr items),
    ("credit_card", secureCard)]

/-- `'enabled_payments'`. -/
def enabledPayments : Value :=
  .ofList (["credit_card", "cimb_clicks", "bca_klikbca", "bca_klikpay", "bri_epay", "echannel",
    "permata_va", "bca_va", "bni_va", "bri_va", "other_va", "gopay", "indomaret", "alfamart",
    "shopeepay", "akulaku"].map .str)

/-- `$transactionData` of `createSnapToken`; `finish` is the address the customer returns to. -/
def snapTransaction (orderId amount customerDetails : Value) (items : List (String × Value))
    (finish : String) : Value :=
  .arr [("transaction_details", transactionDetails orderId amount),
    ("customer_details", customer customerDetails "08123456789"),
    ("item_details", .arr items),
    ("enabled_payments", enabledPayments),
    ("callbacks", .arr [("finish", .str finish)]),
    ("credit_card", secureCard)]

/-! ### The request -/

/-- An entry of the array that `createSnapToken` returns: a value, or a text of the program's own
before the message of an exception, which need not be UTF-8. -/
inductive Entry where
  | value (v : Value)
  | concat (head : String) (tail : Text)

/-- The token of a 2xx answer. -/
def snapCreated (data : Value) : List (String × Entry) :=
  [("success", .value (.bool true)),
    ("token", .value (data.getD "token" .null)),
    ("redirect_url", .value (data.getD "redirect_url" .null))]

/-- Any other answer. -/
def snapRefused (data : Value) : List (String × Entry) :=
  [("success", .value (.bool false)),
    ("message", .value (.str "Failed to create payment token")),
    ("error", .value data)]

/-- `catch (\Exception $e)`. -/
def snapFailed (message : Text) : List (String × Entry) :=
  [("success", .value (.bool false)), ("message", .concat "Payment service error: " message)]

/-- `maskString($string)`: stars, and the last four bytes.  `str_repeat` raises a `ValueError` where
there are fewer. -/
def maskString (string : Value) : Php (List UInt8) := do
  let string ← stringParam string
  let length := string.utf8ByteSize
  if length < 4 then
    throw (.error "str_repeat(): Argument #2 ($times) must be greater than or equal to 0")
  else
    return List.replicate (length - 4) 42 ++ string.toUTF8.data.toList.drop (length - 4)

/-- `Http::withBasicAuth(...)->withHeaders(...)->post(...)`. -/
def snapRequest (h : Config.NewHelper) (username : String) (transactionData : Value) :
    HttpRequest where
  verb := .post
  url := h.baseUrl ++ "/transactions"
  headers := [("Content-Type", .str "application/json")]
  basicAuth := some (username, "")
  timeout := none
  body := .json transactionData

/-- The body of the `try`. -/
def postSnapTransaction (h : Config.NewHelper) (orderId amount customerDetails : Value)
    (items : List (String × Value)) : Php (List (String × Entry)) := do
  let callbackUrl ← config "callback_url"
  let callbackText ← text callbackUrl
  let orderText ← text orderId
  let transactionData := snapTransaction orderId amount customerDetails items
    (callbackText ++ "?order_id=" ++ orderText)
  let _ ← maskString h.serverKey
  let username ← stringParam h.serverKey
  let response ← send (snapRequest h username transactionData)
  let data ← decode response
  if response.successful then return snapCreated data else return snapRefused data

/-- `createSnapToken`. -/
def createSnapToken (h : Config.NewHelper) (orderId amount customerDetails : Value)
    (items : List (String × Value)) : Php (List (String × Entry)) :=
  Eff.handle (postSnapTransaction h orderId amount customerDetails items) fun
    | .exception message => return snapFailed message
    -- an `\Error` passes `catch (\Exception $e)`
    | .error message => throw (.error message)

/-- `setServerKey($key)`. -/
def setServerKey (h : Config.NewHelper) (key : Value) : Config.NewHelper :=
  { h with serverKey := key }

end Artha.MidtransHelper
