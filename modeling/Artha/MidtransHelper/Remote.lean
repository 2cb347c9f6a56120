import Artha.MidtransHelper.Snap

/-!
# `MidtransHelper`: the other calls to Midtrans

`createPaymentToken`, `getTransactionStatus` and `cancelTransaction` send one request each and make
an array of the answer.  They differ in the request and in two texts, and share one definition.
`Method` lists the methods of a helper that send a request or change its key, and `reports` runs a
sequence of them.
-/

namespace Artha.MidtransHelper

open Php Laravel

/-- `$v` passed to a `string` parameter of a method, for which `null` is a `TypeError` as well. -/
def stringArgument (v : Value) : Php String :=
  if v = .null then throw (.error "must be of type string, null given") else stringParam v

/-- What the methods differ in. -/
structure Operation where
  verb : Verb
  headers : List (String × Value)
  /-- The address behind the base URL. -/
  path : Php String
  body : Body
  /-- The message where the answer is no 2xx. -/
  refused : String
  /-- What stands before the message of an exception. -/
  failed : String

/-- `Http::withBasicAuth($this->serverKey, '')` and the request. -/
def Operation.request (op : Operation) (h : Config.NewHelper) (username path : String) :
    HttpRequest where
  verb := op.verb
  url := h.baseUrl ++ path
  headers := op.headers
  basicAuth := some (username, "")
  timeout := none
  body := op.body

/-- `['success' => true, 'data' => $response->json()]`. -/
def replyAccepted (data : Value) : List (String × Entry) :=
  [("success", .value (.bool true)), ("data", .value data)]

/-- Any other answer. -/
def replyRefused (message : String) (data : Value) : List (String × Entry) :=
  [("success", .value (.bool false)), ("message", .value (.str message)), ("error", .value data)]

/-- `catch (\Exception $e)`. -/
def replyFailed (head : String) (message : Text) : List (String × Entry) :=
  [("success", .value (.bool false)), ("message", .concat head message)]

/-- The body of the `try`.  The credentials are checked before the address is put together. -/
def Operation.exchange (op : Operation) (h : Config.NewHelper) : Php (List (String × Entry)) := do
  let username ← stringArgument h.serverKey
  let path ← op.path
  let response ← send (op.request h username path)
  let data ← decode response
  if response.successful then return replyAccepted data
  else return replyRefused op.refused data

def Operation.perform (op : Operation) (h : Config.NewHelper) : Php (List (String × Entry)) :=
  Eff.handle (op.exchange h) fun
    | .exception message => return replyFailed op.failed message
    | .error message => throw (.error message)

/-- `createPaymentToken`, of an array. -/
def createPaymentToken (transactionData : List (String × Value)) : Operation where
  verb := .post
  headers := [("Content-Type", .str "application/json")]
  path := return "/charge"
  body := .json (.arr transactionData)
  refused := "Failed to create payment token"
  failed := "Payment service error: "

/-- `'/' . $orderId . $action`. -/
def orderPath (orderId : Value) (action : String) : Php String := do
  let orderText ← text orderId
  return "/" ++ orderText ++ action

def getTransactionStatus (orderId : Value) : Operation where
  verb := .get
  headers := []
  path := orderPath orderId "/status"
  body := .empty
  refused := "Failed to get transaction status"
  failed := "Failed to get transaction status: "

/-- `cancelTransaction`; `post` without data sends an empty array. -/
def cancelTransaction (orderId : Value) : Operation where
  verb := .post
  headers := []
  path := orderPath orderId "/cancel"
  body := .json (.arr [])
  refused := "Failed to cancel transaction"
  failed := "Failed to cancel transaction: "

/-! ### A helper in use -/

/-- The methods that send a request. -/
inductive Method where
  | createPaymentToken (transactionData : List (String × Value))
  | getTransactionStatus (orderId : Value)
  | cancelTransaction (orderId : Value)
  | createSnapToken (orderId amount customerDetails : Value) (items : List (String × Value))

def Method.call (h : Config.NewHelper) : Method → Php (List (String × Entry))
  | .createPaymentToken transactionData =>
    (MidtransHelper.createPaymentToken transactionData).perform h
  | .getTransactionStatus orderId => (MidtransHelper.getTransactionStatus orderId).perform h
  | .cancelTransaction orderId => (MidtransHelper.cancelTransaction orderId).perform h
  | .createSnapToken orderId amount customerDetails items =>
    MidtransHelper.createSnapToken h orderId amount customerDetails items

/-- A use of a helper. -/
inductive Use where
  | setServerKey (key : Value)
  | call (method : Method)

/-- What came of a call: the key at that time, what the method returned or raised, and the exchanges
it made. -/
structure Report where
  method : Method
  serverKey : Value
  result : Except Throwable (List (String × Entry))
  sent : List Exchange

/-- The reports of a sequence of uses, and the state behind it. -/
def reports (env : Env) : Config.NewHelper → St → List Use → List Report × St
  | _, st, [] => ([], st)
  | h, st, .setServerKey key :: uses => reports env (setServerKey h key) st uses
  | h, st, .call method :: uses =>
    let (result, st') := (method.call h).run env st
    let (rest, last) := reports env h st' uses
    (⟨method, h.serverKey, result, st'.trace.drop st.trace.length⟩ :: rest, last)

end Artha.MidtransHelper
