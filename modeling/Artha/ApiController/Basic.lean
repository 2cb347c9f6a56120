import Artha.Laravel.Http

/-!
# What the actions of `ApiController` share

The actions are written by hand one after the other, but out of a few fragments: a `try` block whose
`catch (\Exception $e)` answers the error envelope (`attempt`), a validator (`validated`), a check
of the session (`withUser`, `withToken`), and a remote call whose failure is thrown (`forward`).
Each fragment is one definition here, and each action below is its own sequence of them.
-/

namespace Artha.ApiController

open Php Laravel

/-- `$this->api`. -/
def api : String := "http://localhost:9090"

/-- `config('api.timeout')`. -/
def apiTimeout : Nat := 30

/-- `Http::post($url, $data)` and its relatives. -/
def jsonRequest (verb : Verb) (url : String) (data : List (String × Value)) : HttpRequest :=
  .plain verb url (.json (.arr data))

/-- `Http::get($url)` and `Http::delete($url)`. -/
def bareRequest (verb : Verb) (url : String) : HttpRequest := .plain verb url .empty

/-- `withHeaders` for a request without a body. -/
def bearing (q : HttpRequest) (authorization : Value) : HttpRequest :=
  { q with headers := [("Authorization", authorization), ("Accept", .str "application/json")] }

/-- `withHeaders` for a request with a JSON body. -/
def bearingJson (q : HttpRequest) (authorization : Value) : HttpRequest :=
  { q with
    headers := [("Authorization", authorization), ("Content-Type", .str "application/json"),
      ("Accept", .str "application/json")] }

/-- The answer of an exception caught by `catch (\Exception $e)`: the error envelope.  A message
that is not UTF-8 makes `response()->json` raise inside the `catch` block, and an `\Error` is not
caught at all. -/
def caught (failure : String) : Throwable → Php Response
  | .exception (.utf8 message) => return errorJson 500 (failure ++ message)
  | .exception (.bytes _ _) =>
    throw (.ofMessage "Malformed UTF-8 characters, possibly incorrectly encoded")
  | .error message => throw (.error message)

/-- `try { body } catch (\Exception $e) { return the error envelope with $failure . message; }`. -/
def attempt (failure : String) (body : Php Response) : Php Response :=
  Eff.handle body (caught failure)

/-- Validate the input and answer 422 with the first message if it fails. -/
def validated (request : Request) (lines : List (Attribute × List Rule)) (k : Php Response) :
    Php Response := do
  match firstError (← Eff.ask).rules request.all lines with
  | some message => return errorJson 422 message
  | none => k

/-- `$user = session('user'); if (!$user) ...` answered with 401. -/
def withUser (k : Value → Php Response) : Php Response := do
  let user ← session "user"
  if !user.truthy then
    return errorJson 401 "User not logged in"
  k user

/-- `$token = $user['token'] ?? null; if (!$token) ...` answered with 401. -/
def withTokenOf (user : Value) (message : String) (k : Value → Php Response) : Php Response := do
  let token := user.getD "token" .null
  if !token.truthy then
    return errorJson 401 message
  k token

/-- `$token = session('user')['token'] ?? null; if (!$token) ...` answered with 401. -/
def withToken (message : String) (k : Value → Php Response) : Php Response := do
  withTokenOf (← session "user") message k

/-- `'Bearer ' . $token`. -/
def bearer (token : Value) : Php Value := do return .str ("Bearer " ++ (← text token))

/-- `if (!$response->successful()) throw new \Exception($response->body());` and go on. -/
def ensure (response : HttpResponse) (k : Php Response) : Php Response :=
  if response.successful then k else throw (.exception response.body)

/-- Send a request, throw the body of a response that is not successful, and go on. -/
def forward (q : HttpRequest) (k : HttpResponse → Php Response) : Php Response := do
  let response ← send q
  ensure response (k response)

/-- `throw new \Exception($literal . $response->body());`.  The literal in front of bytes that are
not UTF-8 leaves them so, and is not recorded. -/
def throwBody (literal : String) (response : HttpResponse) : Php Response :=
  match response.body with
  | .utf8 body => throw (.ofMessage (literal ++ body))
  | .bytes b h => throw (.exception (.bytes b h))

/-- `$errorMsg = $response->json('message') ?? $response->body(); throw new \Exception($errorMsg);`
The constructor takes a string, so a message that is an array is a `TypeError`. -/
def throwBackendMessage (response : HttpResponse) : Php Response := do
  match (← decode response).getD "message" .null with
  | .null => throw (.exception response.body)
  | message => throw (.ofMessage (← stringParam message))

/-- `['status' => 'success', 'message' => $message]`. -/
def successMessage (message : String) : Value :=
  .arr [("status", .str "success"), ("message", .str message)]

/-- `['status' => 'success', 'data' => $data]`. -/
def successData (data : Value) : Value := .arr [("status", .str "success"), ("data", data)]

/-- Answer the success message. -/
def answerMessage (message : String) : Php Response := json (successMessage message)

/-- Answer the decoded body of a response as data. -/
def answerData (response : HttpResponse) : Php Response := do
  json (successData (← decode response))

end Artha.ApiController
