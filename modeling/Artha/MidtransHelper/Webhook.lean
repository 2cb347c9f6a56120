import Artha.Php.Value

/-!
# `MidtransHelper`: the webhook

`verifySignature`, `processWebhook` and `mapTransactionStatus`.  The helper is its server key and
the two library functions these methods call: `hash('sha512', ...)`, and PHP's conversion of a
double to a string.
-/

namespace Artha.MidtransHelper

open Php

/-- The state of the helper that the webhook methods read. -/
structure Helper where
  /-- `$this->serverKey`. -/
  serverKey : String
  /-- `hash('sha512', $s)`, in hexadecimal. -/
  sha512 : String → String
  floatToString : UInt64 → String

/-- `$orderId . $statusCode . $grossAmount`.  An array raises. -/
def signedText (h : Helper) (orderId statusCode grossAmount : Value) : Except Throwable String := do
  let orderId ← orderId.toText h.floatToString
  let statusCode ← statusCode.toText h.floatToString
  let grossAmount ← grossAmount.toText h.floatToString
  return orderId ++ statusCode ++ grossAmount

def verifySignature (h : Helper) (orderId statusCode grossAmount signatureKey : Value) :
    Except Throwable Bool := do
  let signed ← signedText h orderId statusCode grossAmount
  let expectedSignature := h.sha512 (signed ++ h.serverKey)
  -- `===`: a signature that is not a string is not equal
  return Value.str expectedSignature = signatureKey

def mapTransactionStatus (h : Helper) (transactionStatus fraudStatus : Value) : String :=
  if transactionStatus.looseEq h.floatToString "capture" then
    if fraudStatus.looseEq h.floatToString "challenge" then "challenge" else "success"
  else if transactionStatus.looseEq h.floatToString "settlement" then "success"
  else if transactionStatus.looseEq h.floatToString "pending" then "pending"
  else if transactionStatus.looseEq h.floatToString "deny" then "failed"
  else if transactionStatus.looseEq h.floatToString "expire" then "expired"
  else if transactionStatus.looseEq h.floatToString "cancel" then "cancelled"
  else "unknown"

/-- `verifySignature` of the fields of a notification; a missing field is `null`. -/
def verifyNotification (h : Helper) (notification : Value) : Except Throwable Bool :=
  verifySignature h (notification.getD "order_id" .null) (notification.getD "status_code" .null)
    (notification.getD "gross_amount" .null) (notification.getD "signature_key" .null)

/-- `['success' => false, 'message' => $message]`. -/
def refusal (message : String) : Value :=
  .arr [("success", .bool false), ("message", .str message)]

def processWebhook (h : Helper) (notification : Value) : Except Throwable Value :=
  match verifyNotification h notification with
  | .ok true =>
    .ok (.arr [("success", .bool true), ("order_id", notification.getD "order_id" .null),
      ("status", .str (mapTransactionStatus h (notification.getD "transaction_status" .null)
        (notification.getD "fraud_status" .null))),
      ("raw_notification", notification)])
  | .ok false => .ok (refusal "Invalid signature")
  -- `catch (\Exception $e)`; a warning's text is always UTF-8
  | .error (.exception (.utf8 message)) =>
    .ok (refusal ("Failed to process webhook: " ++ message))
  | .error e => .error e

end Artha.MidtransHelper
